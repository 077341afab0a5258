import ApigateBenchmark.Library.Json
import Mathlib.Data.List.Forall2

/-!
# What a JSON tree denotes

The tree of a text with every string literal replaced by the string it stands for. Two texts that
differ in white space and in how the characters of their strings are escaped denote the same. Numbers
keep their digits, and members their order and repetitions, since decoders see both.
-/

namespace Json

inductive Denoted where
  | null
  | bool (value : Bool)
  | num (lit : NumLit)
  | str (text : String)
  | arr (elements : List Denoted)
  | obj (members : List (String × Denoted))

mutual

def Value.denoted : Value → Option Denoted
  | .null => some .null
  | .bool value => some (.bool value)
  | .num lit => some (.num lit)
  | .str lit => lit.decoded.map .str
  | .arr elements => (elementsDenoted elements).map .arr
  | .obj members => (membersDenoted members).map .obj

def elementsDenoted : List Value → Option (List Denoted)
  | [] => some []
  | element :: rest => do
      let first ← element.denoted
      let others ← elementsDenoted rest
      some (first :: others)

def membersDenoted : List (StrLit × Value) → Option (List (String × Denoted))
  | [] => some []
  | (key, value) :: rest => do
      let name ← key.decoded
      let first ← value.denoted
      let others ← membersDenoted rest
      some ((name, first) :: others)

end

/-- Only string literals denote strings. -/
theorem eq_str_of_denoted {value : Value} {text : String} (h : value.denoted = some (.str text)) :
    ∃ lit, value = .str lit ∧ lit.decoded = some text := by
  cases value with
  | str lit =>
      obtain ⟨decoded, hdecoded, hsame⟩ := Option.map_eq_some_iff.mp h
      cases hsame
      exact ⟨lit, rfl, hdecoded⟩
  | null => cases h
  | bool value => cases h
  | num lit => cases h
  | arr elements =>
      obtain ⟨_, -, hsame⟩ := Option.map_eq_some_iff.mp h
      cases hsame
  | obj members =>
      obtain ⟨_, -, hsame⟩ := Option.map_eq_some_iff.mp h
      cases hsame

/-- Only number literals denote numbers. -/
theorem eq_num_of_denoted {value : Value} {lit : NumLit} (h : value.denoted = some (.num lit)) :
    value = .num lit := by
  cases value with
  | num other =>
      cases h
      rfl
  | null => cases h
  | bool value => cases h
  | str text =>
      obtain ⟨_, -, hsame⟩ := Option.map_eq_some_iff.mp h
      cases hsame
  | arr elements =>
      obtain ⟨_, -, hsame⟩ := Option.map_eq_some_iff.mp h
      cases hsame
  | obj members =>
      obtain ⟨_, -, hsame⟩ := Option.map_eq_some_iff.mp h
      cases hsame

/-- Only objects denote objects. -/
theorem eq_obj_of_denoted {value : Value} {entries : List (String × Denoted)}
    (h : value.denoted = some (.obj entries)) :
    ∃ members, value = .obj members ∧ membersDenoted members = some entries := by
  cases value with
  | obj members =>
      obtain ⟨others, hothers, hsame⟩ := Option.map_eq_some_iff.mp h
      cases hsame
      exact ⟨members, rfl, hothers⟩
  | null => cases h
  | bool value => cases h
  | num lit => cases h
  | str text =>
      obtain ⟨_, -, hsame⟩ := Option.map_eq_some_iff.mp h
      cases hsame
  | arr elements =>
      obtain ⟨_, -, hsame⟩ := Option.map_eq_some_iff.mp h
      cases hsame

theorem forall₂_of_elementsDenoted {elements : List Value} {denoted : List Denoted}
    (h : elementsDenoted elements = some denoted) :
    List.Forall₂ (fun element value => element.denoted = some value) elements denoted := by
  induction elements generalizing denoted with
  | nil =>
      obtain rfl := Option.some.inj h
      exact List.Forall₂.nil
  | cons element rest ih =>
      simp only [elementsDenoted, Option.bind_eq_bind, Option.bind_eq_some_iff, Option.some.injEq] at h
      obtain ⟨first, hfirst, others, hothers, rfl⟩ := h
      exact List.Forall₂.cons hfirst (ih hothers)

/-- The literal of the key stands for that name, and the tree of the value for that value. -/
structure Denotes (member : Member) (entry : String × Denoted) : Prop where
  name : member.1.decoded = some entry.1
  value : member.2.denoted = some entry.2

theorem forall₂_of_membersDenoted {members : List Member} {entries : List (String × Denoted)}
    (h : membersDenoted members = some entries) : List.Forall₂ Denotes members entries := by
  induction members generalizing entries with
  | nil =>
      obtain rfl := Option.some.inj h
      exact List.Forall₂.nil
  | cons member rest ih =>
      obtain ⟨key, value⟩ := member
      simp only [membersDenoted, Option.bind_eq_bind, Option.bind_eq_some_iff, Option.some.injEq] at h
      obtain ⟨name, hname, first, hfirst, others, hothers, rfl⟩ := h
      exact List.Forall₂.cons ⟨hname, hfirst⟩ (ih hothers)

theorem Denotes.wellFormed {member : Member} {entry : String × Denoted} (h : Denotes member entry) :
    member.1.wellFormed = true := by
  have hname := h.name
  rw [StrLit.decoded] at hname
  split at hname
  · assumption
  · cases hname

theorem Denotes.isKey_iff {member : Member} {entry : String × Denoted} (h : Denotes member entry)
    (name : String) : isKey name member.1 = true ↔ (entry.1 == name) = true := by
  rw [isKey, h.name, beq_iff_eq, beq_iff_eq, Option.some.injEq]

/-- The members under a key stand for the entries under the name. -/
theorem forall₂_filter {members : List Member} {entries : List (String × Denoted)}
    (h : membersDenoted members = some entries) (name : String) :
    List.Forall₂ Denotes (members.filter fun member => isKey name member.1)
      (entries.filter fun entry => entry.1 == name) :=
  List.rel_filter (fun _ _ hsame => hsame.isKey_iff name) (forall₂_of_membersDenoted h)

end Json
