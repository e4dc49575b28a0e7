import LunchRush.Proofs.Yaml.Lines
import LunchRush.Yaml.Node
/-!
# Tokens read as nodes

A reader takes as many tokens as belong to a node, whatever stands after them, if it has fuel for
four steps with every token.
-/

namespace LunchRush.Yaml

namespace Reader

variable {fuel : Nat} {t : Token} {rest : List Token} {anchors : List (String × Nat)}

/-! ## Tokens -/

theorem run_nextIs (p : Token → Bool) (r : Reading) : (nextIs p).run r = some (r.tokens.head?.any p, r) := rfl

theorem run_peek (r : Reading) : peek.run r = some (r.tokens.head?, r) := rfl

theorem run_skip (t : Token) (rest : List Token) (anchors : List (String × Nat)) :
    skip.run ⟨t :: rest, anchors⟩ = some ((), ⟨rest, anchors⟩) := rfl

theorem run_take (t : Token) (rest : List Token) (anchors : List (String × Nat)) :
    (take t).run ⟨t :: rest, anchors⟩ = some (true, ⟨rest, anchors⟩) := by
  simp [take, run_nextIs, run_skip]

theorem run_take_none {t : Token} {r : Reading} (h : r.tokens.head? ≠ some t) :
    (take t).run r = some (false, r) := by
  have hnext : r.tokens.head?.any (· == t) = false := by
    cases hr : r.tokens.head? with
    | none => rfl
    | some u => simpa [hr] using h
  simp [take, run_nextIs, hnext]

/-- Whether a token says something about the node after it. -/
def isProperty : Token → Bool
  | .anchor _ => true
  | .tag _ _ => true
  | _ => false

theorem run_properties (sh : Shorthands) {t : Token} (h : isProperty t = false) (rest : List Token)
    (anchors : List (String × Nat)) :
    (properties sh).run ⟨t :: rest, anchors⟩ = some (⟨none, none⟩, ⟨t :: rest, anchors⟩) := by
  cases t <;> first | rfl | cases h

theorem run_bind_none (r : Reading) : (Properties.bind ⟨none, none⟩).run r = some (none, r) := rfl

/-! ## Nodes -/

theorem run_scalar (sh : Shorthands) (place : Place) (style : Style) (text : String) :
    (node sh place (fuel + 1)).run ⟨.scalar style text :: rest, anchors⟩ =
      some (.scalar none none style text, ⟨rest, anchors⟩) := by
  have hprop := run_properties sh (t := .scalar style text) rfl rest anchors
  simp [node, run_peek, hprop, run_bind_none, run_skip, scalarTag]

theorem run_brackets (sh : Shorthands) (place : Place) :
    (node sh place (fuel + 2)).run ⟨.openList :: .closeList :: rest, anchors⟩ =
      some (.list none [], ⟨rest, anchors⟩) := by
  have hprop := run_properties sh (t := .openList) rfl (.closeList :: rest) anchors
  have hitems : (listItems sh true (fuel + 1)).run ⟨.closeList :: rest, anchors⟩ =
      some ([], ⟨rest, anchors⟩) := by
    simp [listItems, run_take]
  simp [node, run_peek, hprop, run_bind_none, run_skip, hitems]

theorem run_nodeOr (ends : Token → Bool) {t : Token} (h : ends t = false) (sh : Shorthands) (place : Place)
    (rest : List Token) : (nodeOr ends sh place (fuel + 1)).run ⟨t :: rest, anchors⟩ =
      (node sh place fuel).run ⟨t :: rest, anchors⟩ := by
  simp [nodeOr, run_nextIs, h]

theorem run_blockMap (sh : Shorthands) (place : Place) (hp : place.block = true) {toks : List Token}
    {entries : List (Node × Node)}
    (h : (blockEntries sh fuel).run ⟨toks, anchors⟩ = some (entries, ⟨rest, anchors⟩)) :
    (node sh place (fuel + 1)).run ⟨.blockMap :: toks, anchors⟩ =
      some (.map none entries, ⟨rest, anchors⟩) := by
  have hprop := run_properties sh (t := .blockMap) rfl toks anchors
  simp [node, run_peek, hprop, run_bind_none, run_skip, hp, h]

theorem run_dashes (sh : Shorthands) (place : Place) (hp : place.dashes = true) {toks : List Token}
    {items : List Node}
    (h : (dashes sh fuel).run ⟨.dash :: toks, anchors⟩ = some (items, ⟨rest, anchors⟩)) :
    (node sh place (fuel + 1)).run ⟨.dash :: toks, anchors⟩ = some (.list none items, ⟨rest, anchors⟩) := by
  have hprop := run_properties sh (t := .dash) rfl toks anchors
  simp [node, run_peek, hprop, run_bind_none, hp, h]

/-- A key and its value, and the entries after them. -/
theorem run_entry {sh : Shorthands} {toks toks' : List Token} {key value : Node}
    {entries : List (Node × Node)} {r r' : Reading}
    (hkey : (nodeOr endsEntry sh inMap fuel).run ⟨toks, anchors⟩ = some (key, ⟨.value :: toks', anchors⟩))
    (hvalue : (nodeOr endsEntry sh inMap fuel).run ⟨toks', anchors⟩ = some (value, r))
    (hmore : (blockEntries sh fuel).run r = some (entries, r')) :
    (blockEntries sh (fuel + 1)).run ⟨.key :: toks, anchors⟩ = some ((key, value) :: entries, r') := by
  have hend : (take .blockEnd).run ⟨.key :: toks, anchors⟩ = some (false, ⟨.key :: toks, anchors⟩) :=
    run_take_none (by simp)
  simp [blockEntries, hend, run_nextIs, run_take, hkey, hvalue, hmore]

/-- An item after its dash, and the items after it. -/
theorem run_item {sh : Shorthands} {toks : List Token} {item : Node} {items : List Node} {r r' : Reading}
    (hitem : (nodeOr endsDash sh inBlock fuel).run ⟨toks, anchors⟩ = some (item, r))
    (hmore : (dashes sh fuel).run r = some (items, r')) :
    (dashes sh (fuel + 1)).run ⟨.dash :: toks, anchors⟩ = some (item :: items, r') := by
  simp [dashes, run_take, hitem, hmore]

/-- Tokens that are read as a node under a key, whatever follows but a dash. -/
structure ReadsNode (toks : List Token) (n : Node) : Prop where
  starts : ∃ t ts, toks = t :: ts ∧ endsEntry t = false
  read : ∀ {fuel : Nat} {rest : List Token}, 4 * toks.length < fuel → rest.head? ≠ some .dash →
    (node defaultShorthands inMap fuel).run ⟨toks ++ rest, []⟩ = some (n, ⟨rest, []⟩)

/-- Tokens that are read as the entries of a block. -/
structure ReadsEntries (toks : List Token) (entries : List (Node × Node)) : Prop where
  next : ∀ rest, (toks ++ Token.blockEnd :: rest).head? ≠ some .dash
  read : ∀ {fuel : Nat} {rest : List Token}, 4 * toks.length < fuel →
    (blockEntries defaultShorthands fuel).run ⟨toks ++ Token.blockEnd :: rest, []⟩ = some (entries, ⟨rest, []⟩)

/-- A key as a node. -/
def keyNode (key : String) : Node := .scalar none none .plain key

theorem ReadsNode.scalar (style : Style) (text : String) :
    ReadsNode [.scalar style text] (.scalar none none style text) where
  starts := ⟨_, _, rfl, rfl⟩
  read {fuel rest} hf _ := by
    obtain ⟨fuel, rfl⟩ : ∃ k, fuel = k + 1 := ⟨fuel - 1, by omega⟩
    exact run_scalar defaultShorthands inMap style text

theorem ReadsNode.brackets : ReadsNode [.openList, .closeList] (.list none []) where
  starts := ⟨_, _, rfl, rfl⟩
  read {fuel rest} hf _ := by
    obtain ⟨fuel, rfl⟩ : ∃ k, fuel = k + 2 := ⟨fuel - 2, by simp at hf; omega⟩
    exact run_brackets defaultShorthands inMap

theorem ReadsEntries.nil : ReadsEntries [] [] where
  next rest := by simp
  read {fuel rest} hf := by
    obtain ⟨fuel, rfl⟩ : ∃ k, fuel = k + 1 := ⟨fuel - 1, by omega⟩
    simp [blockEntries, run_take]

theorem ReadsEntries.field {key : String} {value more : List Token} {n : Node}
    {entries : List (Node × Node)} (hv : ReadsNode value n) (hm : ReadsEntries more entries) :
    ReadsEntries (fieldTokens key value ++ more) ((keyNode key, n) :: entries) where
  next rest := by simp [fieldTokens]
  read {fuel rest} hf := by
    have hlen : 4 * (value.length + more.length + 3) < fuel := by
      simp [fieldTokens] at hf
      omega
    obtain ⟨fuel, rfl⟩ : ∃ k, fuel = k + 3 := ⟨fuel - 3, by omega⟩
    obtain ⟨t, ts, hcons, hends⟩ := hv.starts
    have hkey : (nodeOr endsEntry defaultShorthands inMap (fuel + 2)).run
        ⟨.scalar .plain key :: .value :: (value ++ (more ++ .blockEnd :: rest)), []⟩ =
          some (keyNode key, ⟨.value :: (value ++ (more ++ .blockEnd :: rest)), []⟩) := by
      rw [run_nodeOr endsEntry rfl, run_scalar]
      rfl
    have hvalue : (nodeOr endsEntry defaultShorthands inMap (fuel + 2)).run
        ⟨value ++ (more ++ .blockEnd :: rest), []⟩ = some (n, ⟨more ++ .blockEnd :: rest, []⟩) := by
      have hfuel : 4 * value.length < fuel + 1 := by omega
      have hread := hv.read hfuel (hm.next rest)
      rw [hcons, List.cons_append] at hread ⊢
      rw [run_nodeOr endsEntry hends, hread]
    have hmore : (blockEntries defaultShorthands (fuel + 2)).run ⟨more ++ .blockEnd :: rest, []⟩ =
        some (entries, ⟨rest, []⟩) := hm.read (by omega)
    have hread := run_entry hkey hvalue hmore
    simpa [fieldTokens] using hread

/-- The items of a list, each a block. -/
theorem run_items {α : Type} {toks : α → List Token} {entries : α → List (Node × Node)}
    (h : ∀ a, ReadsEntries (toks a) (entries a)) (items : List α) (h0 : 0 < fuel)
    (hf : 4 * (items.flatMap fun a => itemTokens (toks a)).length ≤ fuel)
    (hr : rest.head? ≠ some .dash) :
    (dashes defaultShorthands fuel).run ⟨(items.flatMap fun a => itemTokens (toks a)) ++ rest, []⟩ =
      some (items.map fun a => .map none (entries a), ⟨rest, []⟩) := by
  obtain ⟨fuel, rfl⟩ : ∃ k, fuel = k + 1 := ⟨fuel - 1, by omega⟩
  -- a dash costs one step of fuel and its block a second; four for every token are enough
  induction items generalizing fuel with
  | nil =>
    have htake : (take .dash).run ⟨rest, []⟩ = some (false, ⟨rest, []⟩) := run_take_none hr
    simp [dashes, htake]
  | cons a items ih =>
    have hlen : 4 * ((toks a).length + (items.flatMap fun a => itemTokens (toks a)).length + 3) ≤
        fuel + 1 := by
      simp [itemTokens] at hf ⊢
      omega
    obtain ⟨fuel, rfl⟩ : ∃ k, fuel = k + 3 := ⟨fuel - 3, by omega⟩
    have hmore := ih (fuel + 2) (by omega) (by omega)
    have hentries : (blockEntries defaultShorthands (fuel + 1)).run
        ⟨toks a ++ .blockEnd :: ((items.flatMap fun a => itemTokens (toks a)) ++ rest), []⟩ =
          some (entries a, ⟨(items.flatMap fun a => itemTokens (toks a)) ++ rest, []⟩) :=
      (h a).read (by omega)
    have hitem := run_blockMap defaultShorthands inBlock rfl hentries
    rw [← run_nodeOr endsDash rfl] at hitem
    have hread := run_item hitem hmore
    simpa [itemTokens] using hread

/-- A list of blocks, whose dashes stand in the column of its key. -/
theorem ReadsNode.list {α : Type} {toks : α → List Token} {entries : α → List (Node × Node)}
    (h : ∀ a, ReadsEntries (toks a) (entries a)) {items : List α} (hne : items ≠ []) :
    ReadsNode (items.flatMap fun a => itemTokens (toks a))
      (.list none (items.map fun a => .map none (entries a))) where
  starts := by
    cases items with
    | nil => exact absurd rfl hne
    | cons a items => exact ⟨.dash, _, rfl, rfl⟩
  read {fuel rest} hf hr := by
    obtain ⟨fuel, rfl⟩ : ∃ k, fuel = k + 1 := ⟨fuel - 1, by omega⟩
    cases items with
    | nil => exact absurd rfl hne
    | cons a items =>
      have hpos : 0 < fuel := by
        simp [itemTokens] at hf
        omega
      exact run_dashes defaultShorthands inMap rfl (run_items h (a :: items) hpos (by omega) hr)

/-! ## Documents -/

/-- A text whose tokens are one block of entries holds that block. -/
theorem read?_block {s : String} {toks : List Token} {entries : List (Node × Node)}
    (hs : tokens? s = some (.blockMap :: (toks ++ [.blockEnd]))) (h : ReadsEntries toks entries) :
    read? s = some (some (.map none entries)) := by
  have hread : (node defaultShorthands inBlock (4 * (toks.length + 2) + 4)).run
      ⟨.blockMap :: (toks ++ [.blockEnd]), []⟩ = some (.map none entries, ⟨[], []⟩) :=
    run_blockMap defaultShorthands inBlock rfl (h.read (by omega))
  have hdocument : (document (4 * (toks.length + 2) + 4)).run ⟨.blockMap :: (toks ++ [.blockEnd]), []⟩ =
      some (some (.map none entries), ⟨[], []⟩) := by
    simp [document, run_peek, endsDocument, isDirective, hread]
  have hlen : (Token.blockMap :: (toks ++ [.blockEnd])).length = toks.length + 2 := by simp
  unfold read?
  simp only [hs, Option.bind_eq_bind, Option.bind_some, hlen, hdocument]
  rfl

end Reader

end LunchRush.Yaml
