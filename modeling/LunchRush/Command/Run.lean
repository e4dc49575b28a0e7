import LunchRush.Command.Basic
import LunchRush.Failure
import LunchRush.Http.Client
import LunchRush.Inspection
import LunchRush.Load.Report
import LunchRush.Load.Run
import LunchRush.Random.ChaCha
import LunchRush.Seeding.Run
/-!
# Running commands

A command works on the files and the network of a site and leaves a site behind. What it says goes
to one of two streams, and a failure says what was being done.
-/

namespace LunchRush

/-- The files and the network that a command works on. -/
structure Surroundings (ν : Type) where
  files : FileTree
  network : ν

/-- What a command says, and the code with which it ends. -/
structure Ending where
  code : Nat
  output : String := ""
  errors : String := ""
deriving DecidableEq, Repr

namespace Ending

/-- The end of a command that did what it was asked to. -/
def done (output : String) : Ending := { code := 0, output }

/-- The end of a command that failed. -/
def failed (f : Failure) : Ending := { code := 1, errors := f.report }

/-- The end of a command that broke down. -/
def broken : Ending := { code := 101 }

/-- The version of the program. -/
def version : String := "orderload 0.3.0\n"

/-- The end where the arguments name no command. -/
def ofStop : Command.Stop → Ending
  | .usage => { code := 2 }
  | .help => done ""
  | .version => done version

end Ending

namespace Access

/-- What the client is told. -/
def config (a : Access) : Http.Config :=
  let config : Http.Config := { baseUrl := a.baseUrl }
  let config := config.withToken a.token
  match a.timeoutSecs with
  | some secs => { config with requestTimeout := .ofSecs secs }
  | none => config

/-- The client. -/
def client [Url.Names] (a : Access) : Except Failure Http.Client :=
  match Http.Client.ofConfig a.config with
  | .ok client => .ok client
  | .error e => .error ⟨s!"create client for {a.baseUrl}", [e.message]⟩

end Access

/-- Why a command ends early. -/
inductive Interruption where
  | failure (f : Failure)
  | fault (f : Fault)
deriving DecidableEq, Repr

/-- The end that an interruption brings. A command that draws without end has none; where it is known to draw so,
it is given up as broken. -/
def Interruption.ending : Interruption → Ending
  | .failure f => .failed f
  | .fault _ => .broken

namespace Command

variable {ν : Type}

/-- The outcome of some work, with what the work left behind. -/
abbrev Work (ν α : Type) := Except Interruption α × Surroundings ν

/-- Fails before anything was changed. -/
def refuse {α : Type} (f : Failure) (s : Surroundings ν) : Work ν α := (.error (.failure f), s)

/-- The document in a file. -/
def documentAt (path : String) (files : FileTree) : Except Failure Document :=
  match Store.load ⟨path⟩ files with
  | .ok (document, _) => .ok document
  | .error e => .error ⟨s!"load fixtures {path}", e.message :: e.causes⟩

/-- Describes a document. -/
def inspect (path : String) (json : Bool) (s : Surroundings ν) : Work ν String :=
  match documentAt path s.files with
  | .error f => refuse f s
  | .ok document =>
    let report := Inspection.ofDocument document
    (.ok ((if json then Json.pretty report.toJson else report.text path) ++ "\n"), s)

variable [Http.Network ν] [Url.Names]

/-- Seeds restaurants, with `entropy` as the seed if there is none. -/
def seed (a : Access) (entropy : UInt64) (count : Nat) (path : String) (seed : Option UInt64)
    (requireDiscovery : Bool) (s : Surroundings ν) : Work ν String :=
  match a.client with
  | .error f => refuse f s
  | .ok client =>
    let config : Seeding.Config :=
      { policy := if requireDiscovery then .required else .bestEffort, seed }
    let seeder : Seeding.Seeder Random.ChaCha :=
      { store := ⟨path⟩, supply := .ofSeed (seed.getD entropy), config }
    let site : Seeding.Site (Http.Connection ν) :=
      { gateway := ⟨client, s.network⟩, files := s.files }
    let (result, run) := Seeding.Run.ensure ⟨seeder, site⟩ count
    let s := ⟨run.site.files, run.site.gateway.network⟩
    match result with
    | .error e => refuse ⟨s!"seed {count} restaurants via {a.baseUrl}", e.chain⟩ s
    | .ok report => (.ok (Json.pretty report.toJson ++ "\n"), s)

/-- Runs the load on a gateway. -/
def drive (order : LoadOrder) (entropy : UInt64) (d : Document) (c : Http.Connection ν) :
    Except Interruption Summary × Http.Connection ν :=
  match Identifier.new .customer order.customerId with
  | .error v => (.error (.failure ⟨"customer id", [v.message]⟩), c)
  | .ok customer =>
    let (traffic, _) := Traffic.ofDocument d customer Traffic.defaultAccepted order.seed
    let (result, c) :=
      Load.run traffic order.config (Load.actors traffic order.config entropy) c
    match result with
    | .ok summary => (.ok summary, c)
    | .error (.invalid e) => (.error (.failure ⟨"run load", [e.message]⟩), c)
    | .error (.fault f) => (.error (.fault f), c)

/-- Writes the summary of a run and judges the run by its budgets. -/
def conclude (order : LoadOrder) (summary : Summary) (s : Surroundings ν) : Work ν String :=
  let (written, files) := summary.write order.outDir s.files
  let s := { s with files }
  match written with
  | .error f => refuse f s
  | .ok _ =>
    match summary.checkBudgets order.maxErrorRate order.maxP95Millis with
    | .error e => refuse ⟨e.message, []⟩ s
    | .ok () => (.ok "", s)

/-- Loads the gateway with orders. An unhealthy gateway is loaded all the same. -/
def load (a : Access) (entropy : UInt64) (order : LoadOrder) (s : Surroundings ν) :
    Work ν String :=
  match documentAt order.fixtures s.files with
  | .error f => refuse f s
  | .ok document =>
    match a.client with
    | .error f => refuse f s
    | .ok client =>
      let (_, c) := Gateway.isHealthy (⟨client, s.network⟩ : Http.Connection ν)
      let (result, c) := drive order entropy document c
      let s := { s with network := c.network }
      match result with
      | .error e => (.error e, s)
      | .ok summary => conclude order summary s

/-- Does what a command asks for. -/
def run (c : Command) (entropy : UInt64) (s : Surroundings ν) : Ending × Surroundings ν :=
  let (result, s) := match c.task with
    | .seed count path seed requireDiscovery =>
      Command.seed c.access entropy count path seed requireDiscovery s
    | .load order => load c.access entropy order s
    | .inspect path json => inspect path json s
  match result with
  | .ok output => (.done output, s)
  | .error e => (e.ending, s)

/-- Does what some arguments ask for. -/
def runArguments (environment : List (String × String)) (args : List String) (entropy : UInt64)
    (s : Surroundings ν) : Ending × Surroundings ν :=
  match ofArguments environment args with
  | .ok c => c.run entropy s
  | .error stop => (.ofStop stop, s)

end Command

end LunchRush
