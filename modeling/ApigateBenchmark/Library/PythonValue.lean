import ApigateBenchmark.Library.GoTime
import ApigateBenchmark.Library.WhiteSpace
import Mathlib.Data.List.Nodup

/-!
# Values of Python

What a program can do with a value without knowing its type: every operation says which exception it
raises on a value of the wrong kind. A `str` is the list of its code points, since it may have unpaired
surrogates, a `dict` the list of its items in the order of insertion. A finite `float` is the rational it
stands for.

What depends on the version of the interpreter or on its host is a parameter, the `Interpreter`: the
tables of Unicode, the longest integer it reads, how deep it lets a reader go, and how it reads a date.
-/

namespace Python

/-- The classes of exceptions that are raised by name. -/
inductive Exc where
  | attributeError
  | typeError
  | keyError
  | indexError
  | valueError
  | overflowError
  | recursionError
  | unicodeDecodeError
  | jsonDecodeError
  | osError
  | fileNotFoundError
  | timeoutError
  | urlError
  | httpError (status : Nat)
  | incompleteRead
  | calledProcessError
  deriving DecidableEq

def Exc.isOSError : Exc → Bool
  | .osError | .fileNotFoundError | .timeoutError | .urlError | .httpError _ => true
  | _ => false

/-- A `RecursionError` is a `RuntimeError`. -/
def Exc.isRuntimeError : Exc → Bool
  | .recursionError => true
  | _ => false

abbrev Str := List Nat

def str (text : String) : Str := text.toList.map Char.toNat

structure Interpreter where
  isSpace : Nat → Bool
  isDigit : Nat → Bool
  /-- The value of a decimal digit, of any script. -/
  decimal : Nat → Option Nat
  /-- `sys.get_int_max_str_digits()`, where zero stands for no limit. -/
  maxStrDigits : Nat
  /-- The containers that may be open in a JSON text before the limit of recursion is reached. -/
  nesting : Nat
  /-- What stands for the float `inf` where figures are rationals. -/
  infinity : ℚ
  /-- `datetime.fromisoformat(text).timestamp()` -/
  timestamp : Str → Except Exc ℚ

@[simp] theorem ok_bind {ε α β : Type} (value : α) (f : α → Except ε β) : (Except.ok value >>= f) = f value := rfl

@[simp] theorem error_bind {ε α β : Type} (exc : ε) (f : α → Except ε β) :
    (Except.error exc >>= f) = Except.error exc := rfl

theorem bind_eq_ok {ε α β : Type} {x : Except ε α} {f : α → Except ε β} {result : β} :
    (x >>= f) = .ok result ↔ ∃ value, x = .ok value ∧ f value = .ok result := by
  cases x with
  | error exc => exact iff_of_false (fun h => by cases h) fun ⟨_, h, _⟩ => by cases h
  | ok value =>
      constructor
      · intro h
        exact ⟨value, rfl, h⟩
      · rintro ⟨other, hsame, h⟩
        cases hsame
        exact h

theorem mapM_ok {ε α β : Type} {f : α → Except ε β} {g : α → β} {l : List α}
    (h : ∀ x ∈ l, f x = .ok (g x)) : l.mapM f = .ok (l.map g) := by
  induction l with
  | nil => rfl
  | cons x rest ih =>
      obtain ⟨hx, hrest⟩ := List.forall_mem_cons.mp h
      rw [List.mapM_cons, hx, ih hrest]
      rfl

/-! ### Items of a `dict` -/

section

variable {κ α : Type} [DecidableEq κ]

/-- `items[key] = value`: the value of a key that is there is replaced where it is. -/
def setItem (key : κ) (value : α) : List (κ × α) → List (κ × α)
  | [] => [(key, value)]
  | item :: rest => if item.1 = key then (key, value) :: rest else item :: setItem key value rest

theorem mem_keys_setItem {key name : κ} {value : α} {items : List (κ × α)} :
    name ∈ (setItem key value items).map Prod.fst ↔ name = key ∨ name ∈ items.map Prod.fst := by
  induction items with
  | nil => simp [setItem]
  | cons item rest ih =>
      rw [setItem]
      split
      · rename_i hsame
        simp [hsame]
      · simp only [List.map_cons, List.mem_cons, ih]
        exact or_left_comm

theorem nodup_setItem (key : κ) (value : α) {items : List (κ × α)} (h : (items.map Prod.fst).Nodup) :
    ((setItem key value items).map Prod.fst).Nodup := by
  induction items with
  | nil => exact List.nodup_singleton key
  | cons item rest ih =>
      obtain ⟨hfirst, hrest⟩ := List.nodup_cons.mp h
      rw [setItem]
      split
      · rename_i hsame
        exact hsame ▸ h
      · rename_i hother
        refine List.nodup_cons.mpr ⟨?_, ih hrest⟩
        rw [mem_keys_setItem, not_or]
        exact ⟨hother, hfirst⟩

end

/-- A `dict` that is no JSON value. -/
structure Dict (κ α : Type) where
  items : List (κ × α)
  nodup : (items.map Prod.fst).Nodup

namespace Dict

variable {κ α : Type} [DecidableEq κ]

def empty : Dict κ α := ⟨[], List.nodup_nil⟩

def keys (dict : Dict κ α) : List κ := dict.items.map Prod.fst

def set (dict : Dict κ α) (key : κ) (value : α) : Dict κ α :=
  ⟨setItem key value dict.items, nodup_setItem key value dict.nodup⟩

def get? (dict : Dict κ α) (key : κ) : Option α := (dict.items.find? fun item => item.1 = key).map Prod.snd

theorem mem_keys_set {dict : Dict κ α} {key name : κ} {value : α} :
    name ∈ (dict.set key value).keys ↔ name = key ∨ name ∈ dict.keys := mem_keys_setItem

theorem get?_set (dict : Dict κ α) (key name : κ) (value : α) :
    (dict.set key value).get? name = if name = key then some value else dict.get? name := by
  obtain ⟨items, hnodup⟩ := dict
  simp only [set, get?]
  clear hnodup
  induction items with
  | nil =>
      rw [setItem, List.find?_singleton]
      by_cases hsame : name = key
      · simp [hsame]
      · simp [hsame, Ne.symm hsame]
  | cons item rest ih =>
      rw [setItem]
      split
      · rename_i hitem
        by_cases hsame : name = key
        · simp [hsame]
        · simp [hsame, Ne.symm hsame, hitem]
      · rename_i hitem
        by_cases hfirst : item.1 = name
        · simp [hfirst, hfirst ▸ hitem]
        · simpa [List.find?_cons, hfirst] using ih

theorem mem_items_of_get? {dict : Dict κ α} {key : κ} {value : α} (h : dict.get? key = some value) :
    (key, value) ∈ dict.items := by
  obtain ⟨item, hitem, rfl⟩ := Option.map_eq_some_iff.mp h
  have hkey : item.1 = key := by simpa using List.find?_some hitem
  rw [← hkey]
  exact List.mem_of_find?_eq_some hitem

end Dict

/-! ### Values -/

inductive FloatValue where
  | finite (value : ℚ)
  | infinity (negative : Bool)
  | nan
  deriving DecidableEq

namespace FloatValue

/-- `value - other` -/
def sub : FloatValue → FloatValue → FloatValue
  | .finite value, .finite other => .finite (value - other)
  | .infinity negative, .finite _ => .infinity negative
  | .finite _, .infinity negative => .infinity (!negative)
  | .infinity negative, .infinity other => if negative = other then .nan else .infinity negative
  | _, _ => .nan

end FloatValue

inductive Value where
  | none
  | bool (value : Bool)
  | int (value : Int)
  | float (value : FloatValue)
  | str (value : Str)
  | list (elements : List Value)
  | dict (items : List (Str × Value))

namespace Value

def truthy : Value → Bool
  | .none => false
  | .bool value => value
  | .int value => value != 0
  | .float (.finite value) => value != 0
  | .float _ => true
  | .str value => !value.isEmpty
  | .list elements => !elements.isEmpty
  | .dict items => !items.isEmpty

/-- `value or other` -/
def or (value other : Value) : Value := if value.truthy then value else other

/-- `value.get(key, default)` -/
def getD (value : Value) (key : String) (default : Value) : Except Exc Value :=
  match value with
  | .dict items => .ok ((items.lookup (Python.str key)).getD default)
  | _ => .error .attributeError

/-- `value.get(key)` -/
def get (value : Value) (key : String) : Except Exc Value := value.getD key .none

/-- `value[key]` -/
def item (value : Value) (key : String) : Except Exc Value :=
  match value with
  | .dict items => match items.lookup (Python.str key) with
      | some found => .ok found
      | Option.none => .error .keyError
  | _ => .error .typeError

/-- What `for` goes over. -/
def iter : Value → Except Exc (List Value)
  | .list elements => .ok elements
  | .dict items => .ok (items.map fun item => .str item.1)
  | .str value => .ok (value.map fun code => .str [code])
  | _ => .error .typeError

/-- An operand of arithmetic. -/
def number : Value → Except Exc FloatValue
  | .int value => .ok (.finite value)
  | .float value => .ok value
  | .bool value => .ok (.finite (if value then 1 else 0))
  | _ => .error .typeError

end Value

/-! ### Objects

What the methods of a `dict` come to on a value that is one, in terms of what is under its keys.
-/

namespace Value

def IsObject (value : Value) : Prop := ∃ items, value = .dict items

def field? (value : Value) (key : String) : Option Value :=
  match value with
  | .dict items => items.lookup (Python.str key)
  | _ => Option.none

/-- The value under the keys, one inside the other. -/
def path? (value : Value) : List String → Option Value
  | [] => some value
  | key :: rest => (value.field? key).bind fun inner => inner.path? rest

theorem isObject_empty : IsObject (.dict []) := ⟨[], rfl⟩

theorem IsObject.getD_eq {value : Value} (h : value.IsObject) (key : String) (default : Value) :
    value.getD key default = .ok ((value.field? key).getD default) := by
  obtain ⟨items, rfl⟩ := h
  rfl

theorem IsObject.get_eq {value : Value} (h : value.IsObject) (key : String) :
    value.get key = .ok ((value.field? key).getD .none) := h.getD_eq key .none

/-- Nothing is under a key of the empty object. -/
theorem field?_getD_empty (value : Option Value) (key : String) :
    (value.getD (.dict [])).field? key = value.bind fun object => object.field? key := by
  cases value <;> rfl

/-- `value or {}` on an object that may be missing or null. -/
theorem or_empty {value : Option Value} (h : ∀ object ∈ value, object = .none ∨ object.IsObject) :
    ((value.getD .none).or (.dict [])).IsObject ∧
      ∀ key, ((value.getD .none).or (.dict [])).field? key = value.bind fun object => object.field? key := by
  cases value with
  | none => exact ⟨isObject_empty, fun _ => rfl⟩
  | some object =>
      obtain rfl | ⟨items, rfl⟩ := h object rfl
      · exact ⟨isObject_empty, fun _ => rfl⟩
      · cases items with
        | nil => exact ⟨isObject_empty, fun _ => rfl⟩
        | cons item rest => exact ⟨⟨_, rfl⟩, fun _ => rfl⟩

end Value

variable (python : Interpreter)

/-! ### `int` -/

def exceedsLimit (digits : Nat) : Bool := 0 < python.maxStrDigits && python.maxStrDigits < digits

/-- Decimal digits, with single underscores between them. -/
def readDigits : Bool → Str → Option (List Nat)
  | afterDigit, [] => if afterDigit then some [] else Option.none
  | afterDigit, code :: rest =>
      match python.decimal code with
      | some digit => (readDigits true rest).map (digit :: ·)
      | Option.none => if afterDigit ∧ code = 0x5f then readDigits false rest else Option.none

def intOfStr (text : Str) : Except Exc Int :=
  let trimmed := WhiteSpace.trim python.isSpace text
  let negative : Bool := trimmed.head? = some 0x2d
  let unsigned := if negative ∨ trimmed.head? = some 0x2b then trimmed.drop 1 else trimmed
  match readDigits python false unsigned with
  | Option.none => .error .valueError
  | some digits =>
      if exceedsLimit python digits.length then .error .valueError
      else
        let magnitude : Int := digits.foldl (fun n digit => 10 * n + digit) 0
        .ok (if negative then -magnitude else magnitude)

/-- `int(value)` -/
def Value.toInt : Value → Except Exc Int
  | .int value => .ok value
  | .bool value => .ok (if value then 1 else 0)
  | .float (.finite value) => .ok (GoTime.truncate value)
  | .float (.infinity _) => .error .overflowError
  | .float .nan => .error .valueError
  | .str value => intOfStr python value
  | _ => .error .typeError

namespace Value

/-- A number of things, or nothing said about it. -/
def IsCount (value : Value) : Prop := value = .none ∨ ∃ n : ℕ, value = .int n

def count : Value → ℕ
  | .int value => value.toNat
  | _ => 0

theorem isCount_getD {value : Option Value} (h : ∀ found ∈ value, found.IsCount) :
    (value.getD .none).IsCount := by
  cases value with
  | none => exact .inl rfl
  | some found => exact h found rfl

/-- Of two counts the second is taken if the first is zero. -/
theorem IsCount.or {value other : Value} (h : value.IsCount) (h' : other.IsCount) :
    (value.or other).IsCount ∧
      (value.or other).count = if value.count = 0 then other.count else value.count := by
  obtain rfl | ⟨n, rfl⟩ := h
  · exact ⟨h', rfl⟩
  · cases n with
    | zero => exact ⟨h', rfl⟩
    | succ n => exact ⟨.inr ⟨n + 1, rfl⟩, rfl⟩

/-- `int(value or 0)` -/
theorem IsCount.toInt_or_zero {value : Value} (h : value.IsCount) :
    (value.or (.int 0)).toInt python = .ok value.count := by
  obtain rfl | ⟨n, rfl⟩ := h
  · rfl
  · cases n with
    | zero => rfl
    | succ n => rfl

end Value

/-! ### Lists -/

/-- `elements[i]` -/
def index {α : Type} (elements : List α) (i : Int) : Except Exc α :=
  let position := if i < 0 then i + elements.length else i
  match if position < 0 then Option.none else elements[position.toNat]? with
  | some element => .ok element
  | Option.none => .error .indexError

theorem index_eq {α : Type} {elements : List α} {i : Nat} (h : i < elements.length) :
    index elements i = .ok elements[i] := by
  have hpos : ¬ (i : Int) < 0 := Int.not_lt.mpr (Int.natCast_nonneg i)
  simp only [index, if_neg hpos, Int.toNat_natCast, List.getElem?_eq_getElem h]

/-- `itertools.pairwise` -/
def pairwise {α : Type} (elements : List α) : List (α × α) := elements.zip elements.tail

@[simp] theorem pairwise_nil {α : Type} : pairwise ([] : List α) = [] := rfl

@[simp] theorem pairwise_singleton {α : Type} (x : α) : pairwise [x] = [] := rfl

@[simp] theorem pairwise_cons_cons {α : Type} (x y : α) (rest : List α) :
    pairwise (x :: y :: rest) = (x, y) :: pairwise (y :: rest) := rfl

theorem length_pairwise {α : Type} (elements : List α) : (pairwise elements).length = elements.length - 1 := by
  rw [pairwise, List.length_zip, List.length_tail]
  omega

theorem map_snd_pairwise {α : Type} (elements : List α) : (pairwise elements).map Prod.snd = elements.tail := by
  refine List.map_snd_zip ?_
  rw [List.length_tail]
  omega

theorem mem_of_mem_pairwise {α : Type} {elements : List α} {pair : α × α} (h : pair ∈ pairwise elements) :
    pair.1 ∈ elements ∧ pair.2 ∈ elements :=
  ⟨(List.of_mem_zip h).1, List.mem_of_mem_tail (List.of_mem_zip h).2⟩

end Python
