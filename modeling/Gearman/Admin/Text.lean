import Gearman.Lib.Delimited
import Gearman.Text
import Mathlib.Data.List.DropRight

/-!
# Taking strings apart

The pieces of the standard library that the admin client reads its lines with.
-/

namespace Gearman.Admin

/-- `char::is_whitespace`: the Unicode property `White_Space`. -/
def isWhitespace (c : Char) : Bool :=
  (9 ≤ c.toNat && c.toNat ≤ 13) || c.toNat = 0x20 || c.toNat = 0x85 || c.toNat = 0xA0 ||
    c.toNat = 0x1680 || (0x2000 ≤ c.toNat && c.toNat ≤ 0x200A) || c.toNat = 0x2028 ||
    c.toNat = 0x2029 || c.toNat = 0x202F || c.toNat = 0x205F || c.toNat = 0x3000

/-- `str::split` at a character. -/
def split (sep : Char) (s : String) : List String :=
  (Delimited.fieldsBy (fun c => decide (c = sep)) s.toList).map String.ofList

/-- `str::split_once` at a character. -/
def splitOnce (sep : Char) (s : String) : Option (String × String) :=
  (Delimited.cut sep s.toList).map fun p => (String.ofList p.1, String.ofList p.2)

theorem splitOnce_eq_some_iff {sep : Char} {s a b : String} :
    splitOnce sep s = some (a, b) ↔ sep ∉ a.toList ∧ s.toList = a.toList ++ sep :: b.toList := by
  rw [splitOnce, Option.map_eq_some_iff]
  constructor
  · rintro ⟨⟨front, rest⟩, hcut, hpair⟩
    cases hpair
    rw [String.toList_ofList, String.toList_ofList]
    exact Delimited.cut_eq_some_iff.mp hcut
  · intro h
    refine ⟨(a.toList, b.toList), Delimited.cut_eq_some_iff.mpr h, ?_⟩
    rw [String.ofList_toList, String.ofList_toList]

theorem splitOnce_eq_none {sep : Char} {s : String} (h : sep ∉ s.toList) :
    splitOnce sep s = none := by
  rw [splitOnce, Delimited.cut_eq_none h]
  rfl

/-- `str::split_whitespace`. -/
def splitWhitespace (s : String) : List String :=
  (Delimited.words isWhitespace s.toList).map String.ofList

/-- `str::ends_with` of a character. -/
def endsWith (s : String) (c : Char) : Bool := s.toList.getLast? = some c

/-- `while line.ends_with(['\n', '\r']) { line.pop(); }`. -/
def trimLineEnd (s : String) : String :=
  String.ofList (s.toList.rdropWhile fun c => decide (c = '\n' ∨ c = '\r'))

/-- `str::strip_prefix`. -/
def stripPrefix (start s : String) : Option String :=
  if start.toList.isPrefixOf s.toList then
    some (String.ofList (s.toList.drop start.toList.length))
  else none

theorem stripPrefix_eq_some_iff {start s rest : String} :
    stripPrefix start s = some rest ↔ s = start ++ rest := by
  unfold stripPrefix
  rw [← String.toList_inj, String.toList_append]
  by_cases h : start.toList <+: s.toList
  · obtain ⟨tail, htail⟩ := h
    rw [← htail, List.isPrefixOf_iff_prefix.mpr ⟨tail, rfl⟩, if_pos rfl, List.drop_left,
      Option.some.injEq, List.append_cancel_left_eq, ← String.toList_inj, String.toList_ofList]
  · rw [if_neg fun hprefix => h (List.isPrefixOf_iff_prefix.mp hprefix)]
    exact iff_of_false (fun hnone => by cases hnone) fun heq => h ⟨_, heq.symm⟩

/-- `str::trim_start`. -/
def trimStart (s : String) : String := String.ofList (s.toList.dropWhile isWhitespace)

/-- `str::parse` at `i32`: one leading `+` or `-` is allowed. -/
def parseI32 (s : String) : Option Int32 :=
  match asBytes s with
  | [] => none
  | [43] | [45] => none
  | 43 :: ds => (parseDigits (2 ^ 31 - 1) 0 ds).map fun n : Nat => Int32.ofInt n
  | 45 :: ds => (parseDigits (2 ^ 31) 0 ds).map fun n : Nat => Int32.ofInt (-n)
  | ds => (parseDigits (2 ^ 31 - 1) 0 ds).map fun n : Nat => Int32.ofInt n

/-- `to_string` of an `i32`. -/
def decimalI32 (i : Int32) : String :=
  if i.toInt < 0 then "-" ++ decimal i.toInt.natAbs else decimal i.toInt.natAbs

example :
    splitWhitespace "7 ::1  client1 : reverse\r" = ["7", "::1", "client1", ":", "reverse"] := by
  decide
example : parseI32 "-2147483648" = some (-2147483648) := by decide
example : parseI32 "2147483648" = none := by decide

end Gearman.Admin
