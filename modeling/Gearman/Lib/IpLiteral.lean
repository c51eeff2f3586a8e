import Gearman.Lib.Delimited

/-!
# IP address literals

The texts that are read as an IPv4 or an IPv6 address: four decimal octets, and
eight hexadecimal groups, of which one run may be left out as `::`. The last two
groups may be written as an IPv4 address. An IPv4 address has no colon and an IPv6
address has one, and neither has a bracket.
-/

namespace IpLiteral

open Delimited (fieldsBy)

def isHexDigit (c : Char) : Bool :=
  c.isDigit || ('a' ≤ c && c ≤ 'f') || ('A' ≤ c && c ≤ 'F')

def decimalValue (s : List Char) : Nat := s.foldl (fun n c => 10 * n + (c.toNat - 48)) 0

/-- Up to 255, without leading zeros. -/
def isOctet (s : List Char) : Bool :=
  s.all Char.isDigit && 1 ≤ s.length && s.length ≤ 3 &&
    (s.length = 1 || s.head? ≠ some '0') && decimalValue s ≤ 255

def isIpv4 (s : List Char) : Bool :=
  let octets := fieldsBy (fun c => decide (c = '.')) s
  octets.length = 4 && octets.all isOctet

/-- One to four hexadecimal digits. -/
def isGroup (s : List Char) : Bool := s.all isHexDigit && 1 ≤ s.length && s.length ≤ 4

/-- How many groups stand between colons; an IPv4 address at the end is two. -/
def groups (ipv4 : Bool) (s : List Char) : Option Nat :=
  if s = [] then some 0
  else
    let fields := fieldsBy (fun c => decide (c = ':')) s
    if fields.all isGroup then some fields.length
    else if ipv4 && fields.dropLast.all isGroup && fields.getLast?.any isIpv4 then
      some (fields.length + 1)
    else none

/-- What stands in front of the first `::` and behind it. -/
def cutGap : List Char → Option (List Char × List Char)
  | [] => none
  | [_] => none
  | c :: d :: s =>
    if c = ':' ∧ d = ':' then some ([], s)
    else (cutGap (d :: s)).map fun p => (c :: p.1, p.2)

def isIpv6 (s : List Char) : Bool :=
  match cutGap s with
  | some (front, back) =>
    match groups false front, groups true back with
    | some m, some n => decide (m + n ≤ 7)
    | _, _ => false
  | none => groups true s = some 8

example : isIpv6 "::ffff:192.0.2.1".toList = true := by decide
example : isIpv6 "2001:db8:0:0:0:0:2:1".toList = true := by decide
example : isIpv6 "1::2::3".toList = false := by decide

/-! ## What a literal is made of -/

theorem mem_of_isIpv4 {s : List Char} (h : isIpv4 s = true) {c : Char} (hc : c ∈ s) :
    c = '.' ∨ c.isDigit = true := by
  have hjoin := Delimited.join_fieldsBy (p := fun c => decide (c = '.'))
    (fun _ => of_decide_eq_true) s
  rw [← hjoin] at hc
  rcases Delimited.mem_join hc with hdot | ⟨octet, hoctet, hc⟩
  · exact .inl hdot
  · have hall := List.all_eq_true.mp (Bool.and_eq_true_iff.mp h).2 octet hoctet
    unfold isOctet at hall
    simp only [Bool.and_eq_true] at hall
    exact .inr (List.all_eq_true.mp hall.1.1.1.1 c hc)

theorem mem_of_isGroup {s : List Char} (h : isGroup s = true) {c : Char} (hc : c ∈ s) :
    isHexDigit c = true := by
  unfold isGroup at h
  simp only [Bool.and_eq_true] at h
  exact List.all_eq_true.mp h.1.1 c hc

/-- The characters of an IPv6 address. -/
def Ipv6Char (c : Char) : Prop := c = ':' ∨ c = '.' ∨ isHexDigit c = true

theorem field_of_groups {ipv4 : Bool} {s : List Char} {n : Nat} (h : groups ipv4 s = some n)
    (hne : s ≠ []) {field : List Char} (hfield : field ∈ fieldsBy (fun c => decide (c = ':')) s) :
    isGroup field = true ∨ isIpv4 field = true := by
  unfold groups at h
  rw [if_neg hne] at h
  dsimp only at h
  split at h
  · next hall => exact .inl (List.all_eq_true.mp hall field hfield)
  · split at h
    · next hparts =>
      simp only [Bool.and_eq_true, Option.any_eq_true] at hparts
      obtain ⟨⟨-, hfront⟩, last, hlast, hipv4⟩ := hparts
      rw [← List.dropLast_append_getLast? last hlast] at hfield
      rcases List.mem_append.mp hfield with hmem | hmem
      · exact .inl (List.all_eq_true.mp hfront field hmem)
      · rw [List.mem_singleton.mp hmem]
        exact .inr hipv4
    · cases h

theorem ipv6Char_of_groups {ipv4 : Bool} {s : List Char} {n : Nat} (h : groups ipv4 s = some n)
    {c : Char} (hc : c ∈ s) : Ipv6Char c := by
  have hjoin := Delimited.join_fieldsBy (p := fun c => decide (c = ':'))
    (fun _ => of_decide_eq_true) s
  rw [← hjoin] at hc
  rcases Delimited.mem_join hc with hcolon | ⟨field, hfield, hmem⟩
  · exact .inl hcolon
  · have hne : s ≠ [] := by
      rintro rfl
      cases hc
    rcases field_of_groups h hne hfield with hgroup | hipv4
    · exact .inr (.inr (mem_of_isGroup hgroup hmem))
    · rcases mem_of_isIpv4 hipv4 hmem with hdot | hdigit
      · exact .inr (.inl hdot)
      · right
        right
        unfold isHexDigit
        rw [hdigit, Bool.true_or, Bool.true_or]

theorem eq_of_cutGap {s front back : List Char} (h : cutGap s = some (front, back)) :
    s = front ++ ':' :: ':' :: back := by
  induction s using cutGap.induct generalizing front with
  | case1 | case2 => cases h
  | case3 c d s hgap =>
    obtain ⟨rfl, rfl⟩ := hgap
    rw [cutGap, if_pos ⟨rfl, rfl⟩] at h
    cases h
    rfl
  | case4 c d s hgap ih =>
    rw [cutGap, if_neg hgap, Option.map_eq_some_iff] at h
    obtain ⟨⟨front', back'⟩, hcut, hpair⟩ := h
    cases hpair
    rw [ih hcut]
    rfl

/-- Without a colon there are no more groups than an IPv4 address stands for. -/
theorem le_two_of_groups {ipv4 : Bool} {s : List Char} (hfree : ':' ∉ s) {n : Nat}
    (h : groups ipv4 s = some n) : n ≤ 2 := by
  have hfields : fieldsBy (fun c => decide (c = ':')) s = [s] := by
    have hfield := Delimited.fieldsBy_append (p := fun c => decide (c = ':')) (f := s)
      (fun c hc => decide_eq_false fun heq => hfree (heq ▸ hc)) (l := []) rfl
    rwa [List.append_nil] at hfield
  unfold groups at h
  dsimp only at h
  rw [hfields] at h
  split at h
  · cases h
    exact Nat.zero_le _
  · split at h
    · cases h
      exact Nat.le_succ _
    · split at h
      · cases h
        exact Nat.le_refl _
      · cases h

/-- An IPv6 address is of hexadecimal digits, dots and colons, and has a colon. -/
theorem mem_of_isIpv6 {s : List Char} (h : isIpv6 s = true) :
    (∀ c ∈ s, Ipv6Char c) ∧ ':' ∈ s := by
  unfold isIpv6 at h
  split at h
  · next front back hcut =>
    split at h
    · next m n hfront hback =>
      rw [eq_of_cutGap hcut]
      refine ⟨fun c hc => ?_, List.mem_append_right _ List.mem_cons_self⟩
      rcases List.mem_append.mp hc with hc | hc
      · exact ipv6Char_of_groups hfront hc
      · rcases List.mem_cons.mp hc with rfl | hc
        · exact .inl rfl
        · rcases List.mem_cons.mp hc with rfl | hc
          · exact .inl rfl
          · exact ipv6Char_of_groups hback hc
    · cases h
  · have hgroups : groups true s = some 8 := of_decide_eq_true h
    refine ⟨fun c hc => ipv6Char_of_groups hgroups hc, ?_⟩
    by_contra hfree
    exact absurd (le_two_of_groups hfree hgroups) (by decide)

end IpLiteral
