import LunchRush.Command.Flag
import LunchRush.Files.Store
import LunchRush.Http.Config
import LunchRush.Load.Actor
import LunchRush.Load.Config
/-!
# Commands

What can be asked for on a command line: to seed restaurants, to load the gateway with orders, or to
inspect a document of fixtures. The flags that say where the gateway is may stand before the name of
the command or after it; after it they count more, and the environment counts less than either.
-/

namespace LunchRush

/-- How the gateway is reached. -/
structure Access where
  baseUrl : String
  token : Option String
  timeoutSecs : Option Nat
deriving DecidableEq, Repr

/-- What a load run is told. -/
structure LoadOrder where
  config : LoadConfig
  customerId : String
  seed : Option UInt64
  fixtures : String
  outDir : String
  maxErrorRate : Option Float
  maxP95Millis : Option Nat
deriving DecidableEq, Repr

/-- What is to be done. -/
inductive Task where
  | seed (count : Nat) (fixtures : String) (seed : Option UInt64) (requireDiscovery : Bool)
  | load (order : LoadOrder)
  | inspect (fixtures : String) (json : Bool)
deriving DecidableEq, Repr

/-- What is to be done, and where. -/
structure Command where
  access : Access
  task : Task
deriving DecidableEq, Repr

namespace Command

/-- The flags that every command has. -/
def sharedFlags : List Flag :=
  [⟨"base-url", some .text⟩, ⟨"token", some .text⟩, ⟨"timeout-secs", some .whole⟩]

def seedFlags : List Flag :=
  [⟨"count", some .whole⟩, ⟨"fixtures", some .path⟩, ⟨"seed", some .whole⟩,
    ⟨"require-discovery", none⟩]

def loadFlags : List Flag :=
  [⟨"users", some .whole⟩, ⟨"duration-secs", some .whole⟩, ⟨"max-requests-per-user", some .whole⟩,
    ⟨"min-wait-ms", some .whole⟩, ⟨"max-wait-ms", some .whole⟩, ⟨"customer-id", some .text⟩,
    ⟨"seed", some .whole⟩, ⟨"fixtures", some .path⟩, ⟨"out-dir", some .path⟩,
    ⟨"max-error-rate", some .real⟩, ⟨"max-p95-ms", some .whole⟩]

def inspectFlags : List Flag := [⟨"fixtures", some .path⟩, ⟨"json", none⟩]

/-- The whole number under a flag. -/
def wholeOf? (given : Given) (name : String) : Option Nat := (given.lookup name).bind whole?

/-- The number under a flag. -/
def realOf? (given : Given) (name : String) : Option Float :=
  (given.lookup name).bind fun s => Number.floatOfChars? s.toList

/-- The seed of a generator. -/
def seedOf? (given : Given) : Option UInt64 := (wholeOf? given "seed").map UInt64.ofNat

/-- The document of fixtures. -/
def fixturesOf (given : Given) : String := (given.lookup "fixtures").getD Store.default.path

def seedTask (given : Given) : Task :=
  .seed ((wholeOf? given "count").getD 25) (fixturesOf given) (seedOf? given)
    (given.lookup "require-discovery").isSome

def loadTask (given : Given) : Task :=
  .load
    { config :=
        { users := (wholeOf? given "users").getD 10
          duration := .ofSecs ((wholeOf? given "duration-secs").getD 60)
          maxRequests := wholeOf? given "max-requests-per-user"
          minWait := .ofMillis ((wholeOf? given "min-wait-ms").getD 1000)
          maxWait := .ofMillis ((wholeOf? given "max-wait-ms").getD 2000) }
      customerId := (given.lookup "customer-id").getD Traffic.defaultCustomer.text
      seed := seedOf? given
      fixtures := fixturesOf given
      outDir := (given.lookup "out-dir").getD "target/orderload"
      maxErrorRate := realOf? given "max-error-rate"
      maxP95Millis := wholeOf? given "max-p95-ms" }

def inspectTask (given : Given) : Task :=
  .inspect (fixturesOf given) (given.lookup "json").isSome

/-- The flags of a command, and the task that they describe. -/
def task? : String → Option (List Flag × (Given → Task))
  | "seed" => some (seedFlags, seedTask)
  | "load" => some (loadFlags, loadTask)
  | "inspect" => some (inspectFlags, inspectTask)
  | _ => none

/-- The access that flags and the environment describe; what comes first counts. -/
def accessOf (environment : List (String × String)) (given : Given) : Access :=
  { baseUrl := ((given.lookup "base-url").or (environment.lookup "ORDERLOAD_BASE_URL")).getD
      ({} : Http.Config).baseUrl
    token := (given.lookup "token").or (environment.lookup "ORDERLOAD_TOKEN")
    timeoutSecs := wholeOf? given "timeout-secs" }

/-- Whether there is help on some words: on nothing in particular, or on one command. -/
def isTopic : List String → Bool
  | [] => true
  | [name] => name == "help" || (task? name).isSome
  | _ => false

/-- The command that some arguments name. -/
def ofArguments (environment : List (String × String)) (args : List String) :
    Except Stop Command := do
  let (before, rest) ← Grammar.read ⟨sharedFlags, true⟩ [] args
  match rest with
  | [] => .error .usage
  | name :: rest =>
    match task? name with
    | none => .error (if name = "help" && isTopic rest then .help else .usage)
    | some (flags, task) =>
      let (after, rest) ← Grammar.read ⟨sharedFlags ++ flags, false⟩ [] rest
      if !rest.isEmpty then .error .usage
      return ⟨accessOf environment (after ++ before), task after⟩

end Command

end LunchRush
