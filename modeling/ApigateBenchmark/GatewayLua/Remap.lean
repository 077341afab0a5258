import ApigateBenchmark.GatewayLua.Transforms
import ApigateBenchmark.Library.LuaPattern
import ApigateBenchmark.Library.WhiteSpace

/-!
# The lookup rewrite of Kong and APISIX

`M.remap` of the two `transforms.lua`: a table with a string `q` becomes the table with `query`,
`limit` and `source` that is encoded and sent on, and everything else ends the request. `trim` is a
pattern on the bytes of the string, with a lazy capture between two greedy runs of white space; it
never fails, and captures what trimming ASCII white space leaves.
-/

namespace ApigateBenchmark.GatewayLua

open Json

def lookupLimit : Nat := 20
def lookupSource : String := "gateway"

/-- `^%s*(.-)%s*$` -/
def trimPattern : List LuaPattern.Item :=
  [.star WhiteSpace.isAsciiSpace, .openCapture, .minus fun _ => true, .closeCapture,
    .star WhiteSpace.isAsciiSpace, .subjectEnd]

/-- The first capture, or `nil`. -/
def trim (s : Bytes) : Option Bytes := (LuaPattern.captures trimPattern s).bind List.head?

/-- The table `cjson.encode` is given; a field that is `nil` is not there. -/
structure LookupInternal where
  query : Option Bytes
  limit : Nat
  source : String
  deriving DecidableEq

variable (doubles : Doubles) (cjson : Cjson doubles)

/-- The tests of `M.remap` on the decoded body and the table it builds, or the text of the error. -/
def remapBody (body : LuaValue doubles) : Except String LookupInternal :=
  if body.type ≠ "table" then .error "invalid json body"
  else match body.get doubles "q" with
    | .string q => .ok ⟨trim q, lookupLimit, lookupSource⟩
    | _ => .error "invalid json body"

/-- `M.remap` of Kong: the body set, or the status and the error it ends the request with. -/
def kongRemap (raw : Bytes) : Except (Nat × String) LookupInternal :=
  (remapBody doubles (kongGetBody doubles cjson raw)).mapError fun error => (400, error)

/-- `M.remap` of APISIX: the body set, or the status and the message it ends the request with. -/
def apisixRemap (raw : Option Bytes) : Except (Nat × String) LookupInternal :=
  (remapBody doubles (readJsonBody doubles cjson raw)).mapError fun message => (400, message)

/-! ### The pattern -/

/-- The lazy capture ends where only white space follows. -/
theorem matchItems_capture (s : Bytes) :
    LuaPattern.matchItems (trimPattern.drop 1) [] s =
      some [⟨s, some (s.rdropWhile WhiteSpace.isAsciiSpace).length⟩] := by
  have hsplit := List.rdropWhile_append_rtakeWhile (p := WhiteSpace.isAsciiSpace) (l := s)
  have hback : (s.rtakeWhile WhiteSpace.isAsciiSpace).all WhiteSpace.isAsciiSpace = true :=
    List.all_eq_true.mpr fun b hb => List.mem_rtakeWhile_imp hb
  have hlength : s.length - (s.rtakeWhile WhiteSpace.isAsciiSpace).length =
      (s.rdropWhile WhiteSpace.isAsciiSpace).length := by
    have htotal := congrArg List.length hsplit
    rw [List.length_append] at htotal
    omega
  have hrest : ∀ rest, LuaPattern.matchItems (trimPattern.drop 3) [⟨s, none⟩] rest =
      if rest.all WhiteSpace.isAsciiSpace then
        some [⟨s, some (s.length - rest.length)⟩] else none := by
    intro rest
    exact LuaPattern.maxExpand_end WhiteSpace.isAsciiSpace _ rest
  have hcapture : LuaPattern.minExpand (fun _ => true)
      (LuaPattern.matchItems (trimPattern.drop 3) [⟨s, none⟩])
      (s.rdropWhile WhiteSpace.isAsciiSpace ++ s.rtakeWhile WhiteSpace.isAsciiSpace) =
      some [⟨s, some (s.rdropWhile WhiteSpace.isAsciiSpace).length⟩] := by
    refine LuaPattern.minExpand_of_split _ _ (fun _ _ => rfl) ?_ fun pre post hpre hpost => ?_
    · rw [hrest, if_pos hback, hlength]
    · rw [hrest, if_neg]
      intro hall
      -- a longer rest would begin before the last byte that is no white space
      have hne : s.rdropWhile WhiteSpace.isAsciiSpace ≠ [] := by
        rw [hpre]
        exact List.append_ne_nil_of_right_ne_nil pre hpost
      have hlast := List.rdropWhile_last_not (p := WhiteSpace.isAsciiSpace) (l := s) hne
      apply hlast
      apply List.all_eq_true.mp hall
      apply List.mem_append_left
      simp only [hpre, List.getLast_append_of_ne_nil _ hpost]
      exact List.getLast_mem hpost
  rwa [hsplit] at hcapture

theorem trim_eq (s : Bytes) : trim s = some (WhiteSpace.trim WhiteSpace.isAsciiSpace s) := by
  have hmatch : LuaPattern.matchItems trimPattern [] s =
      LuaPattern.matchItems (trimPattern.drop 1) [] (s.dropWhile WhiteSpace.isAsciiSpace) := by
    refine LuaPattern.maxExpand_of_total WhiteSpace.isAsciiSpace _ (fun rest => ?_) s
    change (LuaPattern.matchItems (trimPattern.drop 1) [] rest).isSome = true
    rw [matchItems_capture]
    rfl
  have hprefix := List.prefix_iff_eq_take.mp
    (List.rdropWhile_prefix (p := WhiteSpace.isAsciiSpace) (l := s.dropWhile WhiteSpace.isAsciiSpace))
  rw [trim, LuaPattern.captures, hmatch, matchItems_capture, WhiteSpace.trim, hprefix]
  simp [LuaPattern.Capture.text, ← hprefix]

/-! ### The tests -/

/-- `M.remap` sends on the trimmed last `q` of an object, and that only. -/
theorem remapBody_table {members : List Member} {fields : List (Bytes × LuaValue doubles)}
    (h : membersToLua doubles members = some fields) (internal : LookupInternal) :
    remapBody doubles (.table [] fields) = .ok internal ↔
      ∃ lit text, lastValue (isKey "q") members = some (.str lit) ∧ lit.decoded = some text ∧
        internal = ⟨trim (Bytes.utf8 text), lookupLimit, lookupSource⟩ := by
  have htable : (LuaValue.table [] fields : LuaValue doubles).type = "table" := rfl
  rw [remapBody, htable, if_neg (by simp)]
  obtain ⟨hnone, hget⟩ | ⟨value, converted, hvalue, hconverted, hget⟩ := get_toLua doubles h "q"
  · rw [hget, hnone]
    simp
  · rw [hget, hvalue]
    cases value with
    | str lit =>
        rw [toLua, Option.map_eq_some_iff] at hconverted
        obtain ⟨text, htext, rfl⟩ := hconverted
        simp [htext, eq_comm]
    | null =>
        obtain rfl := Option.some.inj hconverted
        simp
    | bool value =>
        obtain rfl := Option.some.inj hconverted
        simp
    | num lit =>
        obtain rfl := Option.some.inj hconverted
        simp
    | arr elements =>
        simp only [toLua, Option.bind_eq_bind, Option.bind_eq_some_iff, Option.some.injEq] at hconverted
        obtain ⟨array, -, rfl⟩ := hconverted
        simp
    | obj members =>
        simp only [toLua, Option.bind_eq_bind, Option.bind_eq_some_iff, Option.some.injEq] at hconverted
        obtain ⟨fields, -, rfl⟩ := hconverted
        simp

/-- Of what comes of a JSON tree only an object has a `q`. -/
theorem obj_of_remapBody {tree : Value} {value : LuaValue doubles} (h : toLua doubles tree = some value)
    {internal : LookupInternal} (hremap : remapBody doubles value = .ok internal) :
    ∃ members fields, tree = .obj members ∧ value = .table [] fields ∧
      membersToLua doubles members = some fields := by
  cases tree with
  | obj members =>
      rw [toLua, Option.bind_eq_bind, Option.bind_eq_some_iff] at h
      obtain ⟨fields, hfields, hvalue⟩ := h
      exact ⟨members, fields, rfl, (Option.some.inj hvalue).symm, hfields⟩
  | arr elements =>
      rw [toLua, Option.bind_eq_bind, Option.bind_eq_some_iff] at h
      obtain ⟨array, -, hvalue⟩ := h
      obtain rfl := Option.some.inj hvalue
      cases hremap
  | str lit =>
      rw [toLua, Option.map_eq_some_iff] at h
      obtain ⟨text, -, rfl⟩ := h
      cases hremap
  | _ =>
      obtain rfl := Option.some.inj h
      cases hremap

theorem ok_of_mapError {ε ε' α : Type} {f : ε → ε'} {result : Except ε α} {a : α}
    (h : result.mapError f = .ok a) : result = .ok a := by
  cases result with
  | error err => cases h
  | ok b => exact congrArg Except.ok (Except.ok.inj h)

/-- What Kong sends on was decoded. -/
theorem decoded_of_kongRemap {raw : Bytes} {internal : LookupInternal}
    (h : kongRemap doubles cjson raw = .ok internal) :
    ∃ value, cjson raw = some value ∧ remapBody doubles value = .ok internal := by
  have hremap := ok_of_mapError h
  rw [kongGetBody] at hremap
  split at hremap
  · exact ⟨_, by assumption, hremap⟩
  · cases hremap

/-- What APISIX sends on was decoded. -/
theorem decoded_of_apisixRemap {raw : Bytes} {internal : LookupInternal}
    (h : apisixRemap doubles cjson (some raw) = .ok internal) :
    ∃ value, cjson raw = some value ∧ remapBody doubles value = .ok internal := by
  have hremap := ok_of_mapError h
  rw [readJsonBody] at hremap
  cases hvalue : cjson raw with
  | none =>
      rw [hvalue] at hremap
      cases hremap
  | some value =>
      rw [hvalue] at hremap
      exact ⟨value, rfl, hremap⟩

end ApigateBenchmark.GatewayLua
