import LunchRush.Proofs.Yaml.Printer
/-!
# What is written may be read

A reader refuses a text with a character that YAML does not allow. However a text is written, no such
character is left in it (`scalarChars_allowed`).
-/

namespace LunchRush.Yaml

/-- Every character may stand in a YAML text. -/
def Allowed (cs : List Char) : Prop := ∀ c ∈ cs, isAllowed c = true

theorem Allowed.append {xs ys : List Char} (hx : Allowed xs) (hy : Allowed ys) : Allowed (xs ++ ys) :=
  List.forall_mem_append.2 ⟨hx, hy⟩

theorem Allowed.cons {c : Char} {cs : List Char} (hc : isAllowed c = true) (h : Allowed cs) :
    Allowed (c :: cs) := List.forall_mem_cons.2 ⟨hc, h⟩

theorem Allowed.nil : Allowed [] := nofun

theorem allowed_spaces (n : Nat) : Allowed (spaces n) := fun c hc => by
  rw [spaces_blank n c hc]
  rfl

theorem allowed_of_shown {c : Char} (h : isShown c = true) : isAllowed c = true := by
  simp only [isShown, Bool.and_eq_true] at h
  exact h.1.1.1.1

theorem Shown.allowed {cs : List Char} (h : Shown cs) : Allowed cs :=
  fun c hc => allowed_of_shown (h.all c hc)

theorem singleQuotedChars_allowed {indent : Nat} {cs : List Char} (h : Allowed cs) (broken : Bool) :
    Allowed (singleQuotedChars indent broken cs) := by
  have hindent : ∀ broken : Bool, Allowed (if broken then List.replicate indent ' ' else []) := by
    intro broken
    cases broken
    · exact .nil
    · exact allowed_spaces indent
  induction cs generalizing broken with
  | nil => exact hindent broken
  | cons c cs ih =>
    obtain ⟨hc, hcs⟩ := List.forall_mem_cons.1 h
    rw [singleQuotedChars]
    split
    · exact .cons hc (ih hcs _)
    · refine ((hindent broken).append ?_).append (ih hcs _)
      split
      · exact .cons rfl (.cons rfl .nil)
      · exact .cons hc .nil

theorem literalChars_allowed {indent : Nat} {cs : List Char} (h : Allowed cs) (broken : Bool) :
    Allowed (literalChars indent broken cs) := by
  induction cs generalizing broken with
  | nil => exact .nil
  | cons c cs ih =>
    obtain ⟨hc, hcs⟩ := List.forall_mem_cons.1 h
    rw [literalChars]
    split
    · exact .cons hc (ih hcs _)
    · refine .append ?_ (.cons hc (ih hcs _))
      split
      · exact allowed_spaces indent
      · exact .nil

theorem literalHeader_allowed (cs : List Char) : Allowed (literalHeader cs) := by
  have hmark : Allowed (chomping cs) := by
    unfold chomping
    split
    · repeat' split
      · exact .cons rfl .nil
      · exact .cons rfl .nil
      · exact .nil
    · exact .cons rfl .nil
  refine .append (.cons rfl ?_) hmark
  split
  · exact .cons rfl .nil
  · exact .nil

theorem hexDigits_allowed (n : Nat) : Allowed ((Text.hexDigits n).map Char.toUpper) := by
  have hdigit : ∀ d < 16, isAllowed (Nat.digitChar d).toUpper = true := by decide
  induction n using Nat.strongRecOn with
  | ind n ih =>
    unfold Text.hexDigits at ih ⊢
    rw [Nat.toDigits_eq_if (by decide)]
    split
    · rename_i h
      exact .cons (hdigit n h) .nil
    · rw [List.map_append]
      exact (ih _ (by omega)).append (.cons (hdigit _ (Nat.mod_lt _ (by decide))) .nil)

theorem hexField_allowed (width n : Nat) : Allowed (hexField width n) := by
  refine .append (fun c hc => ?_) (hexDigits_allowed n)
  rw [List.eq_of_mem_replicate hc]
  rfl

theorem escapedChar_allowed (c : Char) : Allowed (escapedChar c) := by
  unfold escapedChar
  split
  · rename_i letter hl
    refine .cons rfl (.cons ?_ .nil)
    unfold escapeLetter? at hl
    split at hl <;> cases hl <;> rfl
  · split
    · rename_i hs
      exact .cons (allowed_of_shown hs) .nil
    · repeat' split
      all_goals exact .cons rfl (.cons rfl (hexField_allowed _ _))

/-- However a text is written, what is written may be read. -/
theorem scalarChars_allowed (indent : Nat) (s : String) : Allowed (scalarChars indent s) := by
  have hstyled := styled_styleOf s
  unfold scalarChars
  generalize styleOf s = style at hstyled
  cases hstyled with
  | plain _ hs => exact hs.allowed
  | singleQuoted h =>
    exact .append (.cons rfl (singleQuotedChars_allowed h.allowed _)) (.cons rfl .nil)
  | literal _ hs =>
    exact (literalHeader_allowed _).append (.cons rfl (literalChars_allowed hs.allowed _))
  | doubleQuoted =>
    refine .append (.cons rfl fun c hc => ?_) (.cons rfl .nil)
    obtain ⟨a, -, ha⟩ := List.mem_flatMap.1 hc
    exact escapedChar_allowed a c ha

end LunchRush.Yaml
