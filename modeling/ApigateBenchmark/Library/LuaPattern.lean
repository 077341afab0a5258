import ApigateBenchmark.Library.Bytes

/-!
# Lua patterns

The matcher behind `string.match` for anchored patterns of repeated classes and captures: a pattern is
the list of its items, and matching backtracks the way `lstrlib.c` does. `max_expand` takes as many
bytes as it can and gives them back one by one, `min_expand` takes none and then one more at a time.
-/

namespace LuaPattern

inductive Item where
  /-- `x*` -/
  | star (kind : UInt8 → Bool)
  /-- `x-` -/
  | minus (kind : UInt8 → Bool)
  | openCapture
  | closeCapture
  /-- `$` -/
  | subjectEnd

/-- The subject from where the capture opens and, once it is closed, how much of it is captured. -/
structure Capture where
  start : Bytes
  length : Option Nat
  deriving DecidableEq

variable {α : Type*} (kind : UInt8 → Bool) (next : Bytes → Option α)

def maxExpand : Bytes → Option α
  | [] => next []
  | b :: rest => if kind b then (maxExpand rest).or (next (b :: rest)) else next (b :: rest)

def minExpand : Bytes → Option α
  | [] => next []
  | b :: rest => (next (b :: rest)).or (if kind b then minExpand rest else none)

/-- Close the capture that was opened last, in a list that begins with the last. -/
def closeLast (subject : Bytes) : List Capture → Option (List Capture)
  | [] => none
  | ⟨start, none⟩ :: captures => some (⟨start, some (start.length - subject.length)⟩ :: captures)
  | closed :: captures => (closeLast subject captures).map (closed :: ·)

def matchItems : List Item → List Capture → Bytes → Option (List Capture)
  | [], captures, _ => some captures
  | .star kind :: items, captures, subject => maxExpand kind (matchItems items captures) subject
  | .minus kind :: items, captures, subject => minExpand kind (matchItems items captures) subject
  | .openCapture :: items, captures, subject => matchItems items (⟨subject, none⟩ :: captures) subject
  | .closeCapture :: items, captures, subject =>
      (closeLast subject captures).bind fun captures => matchItems items captures subject
  | .subjectEnd :: items, captures, subject =>
      if subject = [] then matchItems items captures subject else none

def Capture.text (capture : Capture) : Option Bytes := capture.length.map fun n => capture.start.take n

/-- `subject:match("^...")`: the captures in their order. -/
def captures (pattern : List Item) (subject : Bytes) : Option (List Bytes) :=
  (matchItems pattern [] subject).bind fun captures => captures.reverse.mapM Capture.text

/-! ### Repetition -/

/-- Where the rest always matches, nothing is given back. -/
theorem maxExpand_of_total (htotal : ∀ subject, (next subject).isSome = true) (subject : Bytes) :
    maxExpand kind next subject = next (subject.dropWhile kind) := by
  induction subject with
  | nil => rfl
  | cons b rest ih =>
      rw [maxExpand]
      by_cases hb : kind b = true
      · obtain ⟨result, hresult⟩ := Option.isSome_iff_exists.mp (htotal (rest.dropWhile kind))
        rw [if_pos hb, List.dropWhile_cons_of_pos hb, ih, hresult, Option.some_or]
      · rw [if_neg hb, List.dropWhile_cons_of_neg hb]

/-- `x*$` matches what is made of that class only. -/
theorem maxExpand_end (result : α) (subject : Bytes) :
    maxExpand kind (fun rest => if rest = [] then some result else none) subject =
      if subject.all kind then some result else none := by
  induction subject with
  | nil => rfl
  | cons b rest ih =>
      rw [maxExpand, ih, if_neg (List.cons_ne_nil b rest), Option.or_none, List.all_cons]
      cases kind b <;> simp

/-- The shortest front after which the rest matches is the one taken. -/
theorem minExpand_of_split {front rest : Bytes} {result : α} (hfront : ∀ b ∈ front, kind b = true)
    (hresult : next rest = some result)
    (hshorter : ∀ pre post, front = pre ++ post → post ≠ [] → next (post ++ rest) = none) :
    minExpand kind next (front ++ rest) = some result := by
  induction front with
  | nil =>
      rw [List.nil_append]
      cases rest <;> rw [minExpand, hresult]
      rfl
  | cons b front ih =>
      obtain ⟨hb, hothers⟩ := List.forall_mem_cons.mp hfront
      have hnone : next (b :: (front ++ rest)) = none := hshorter [] (b :: front) rfl (by simp)
      rw [List.cons_append, minExpand, hnone, Option.none_or, if_pos hb]
      refine ih hothers fun pre post hsplit hpost => ?_
      exact hshorter (b :: pre) post (by rw [hsplit]; rfl) hpost

end LuaPattern
