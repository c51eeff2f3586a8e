import Mathlib.Data.List.Induction
import Mathlib.Tactic.Common

/-!
# Incremental decoders

A decoder looks at the bytes buffered so far and returns an item, asks for
more, or fails; it also says which bytes it leaves. It is *stable* when more
bytes at the end of the buffer do not change an answer it has already given.
The items a stable decoder produces, and the error it stops at, are then a
function of the stream alone (`Stable.feedAll_outcome`): how the stream was
cut into chunks does not matter.
-/

namespace Incremental

variable {β α ε : Type*}

/-- An answer to the bytes buffered, and the bytes left in the buffer. -/
abbrev Decoder (β α ε : Type*) := List β → Except ε (Option α) × List β

/-- More bytes at the end never change an answer already given, and every
item uses up at least one byte. -/
structure Stable (dec : Decoder β α ε) : Prop where
  more : ∀ {buf rest}, dec buf = (.ok none, rest) → rest = buf
  item : ∀ {buf a rest} (x : List β), dec buf = (.ok (some a), rest) →
    dec (buf ++ x) = (.ok (some a), rest ++ x)
  progress : ∀ {buf a rest}, dec buf = (.ok (some a), rest) → rest.length < buf.length
  failed : ∀ {buf e rest} (x : List β), dec buf = (.error e, rest) →
    dec (buf ++ x) = (.error e, rest ++ x)

/-- What has come out of a decoder: the items, the error it stopped at, and
the bytes still buffered. -/
structure Outcome (β α ε : Type*) where
  items : List α
  error : Option ε
  buf : List β
  deriving DecidableEq

namespace Outcome

/-- Items that came out before. -/
def prepend (as : List α) (o : Outcome β α ε) : Outcome β α ε :=
  { o with items := as ++ o.items }

@[simp] theorem prepend_nil (o : Outcome β α ε) : o.prepend [] = o := rfl

@[simp] theorem prepend_prepend (as bs : List α) (o : Outcome β α ε) :
    (o.prepend bs).prepend as = o.prepend (as ++ bs) := by
  simp [prepend]

end Outcome

/-- Calls the decoder until it asks for more or fails, at most `n` times. -/
def drainUpTo (dec : Decoder β α ε) : Nat → List β → Outcome β α ε
  | 0, buf => ⟨[], none, buf⟩
  | n + 1, buf =>
    match dec buf with
    | (.ok (some a), rest) => (drainUpTo dec n rest).prepend [a]
    | (.ok none, rest) => ⟨[], none, rest⟩
    | (.error e, rest) => ⟨[], some e, rest⟩

/-- Calls the decoder until it asks for more or fails. Each item uses up a
byte, so one call for each byte and one to find out that no item is left do. -/
def drain (dec : Decoder β α ε) (buf : List β) : Outcome β α ε :=
  drainUpTo dec (buf.length + 1) buf

/-- A chunk arrives: it is appended to the buffer and the decoder is called
until it asks for more or fails. Nothing is decoded after an error. -/
def feed (dec : Decoder β α ε) (o : Outcome β α ε) (chunk : List β) : Outcome β α ε :=
  match o.error with
  | some _ => { o with buf := o.buf ++ chunk }
  | none => (drain dec (o.buf ++ chunk)).prepend o.items

/-- The chunks arrive one after another at an empty buffer. -/
def feedAll (dec : Decoder β α ε) (chunks : List (List β)) : Outcome β α ε :=
  chunks.foldl (feed dec) ⟨[], none, []⟩

/-! ## Items in full -/

section frames

variable (frame : α → List β)

/-- The items whose frames, one after the other, lie in the first `n` bytes in full. -/
def inFull : List α → Nat → List α
  | [], _ => []
  | a :: as, n =>
    if (frame a).length ≤ n then a :: inFull as (n - (frame a).length) else []

variable {frame}

theorem inFull_prefix (as : List α) (n : Nat) : inFull frame as n <+: as := by
  induction as generalizing n with
  | nil => exact List.prefix_rfl
  | cons a as ih =>
    unfold inFull
    split
    · exact List.prefix_cons_inj a |>.mpr (ih _)
    · exact List.nil_prefix

/-- Once all bytes are there, so are all items. -/
theorem inFull_all {as : List α} {n : Nat} (h : (as.flatMap frame).length ≤ n) :
    inFull frame as n = as := by
  induction as generalizing n with
  | nil => rfl
  | cons a as ih =>
    rw [List.flatMap_cons, List.length_append] at h
    rw [inFull, if_pos (by omega), ih (by omega)]

/-- Items with the same frames. -/
theorem inFull_map {γ : Type*} {frame' : γ → List β} (f : α → γ) {as : List α}
    (h : ∀ a ∈ as, frame' (f a) = frame a) (n : Nat) :
    inFull frame' (as.map f) n = (inFull frame as n).map f := by
  induction as generalizing n with
  | nil => rfl
  | cons a as ih =>
    rw [List.forall_mem_cons] at h
    rw [List.map_cons, inFull, inFull, h.1, ih h.2]
    split <;> rfl

end frames

section Stable

variable {dec : Decoder β α ε} (hdec : Stable dec)
include hdec

/-- Once there are more calls than bytes, further calls change nothing. -/
theorem Stable.drainUpTo_congr {n m : Nat} {buf : List β} (hn : buf.length < n)
    (hm : buf.length < m) : drainUpTo dec n buf = drainUpTo dec m buf := by
  induction n generalizing m buf with
  | zero => omega
  | succ n ih =>
    obtain ⟨m, rfl⟩ : ∃ k, m = k + 1 := ⟨m - 1, by omega⟩
    simp only [drainUpTo]
    rcases hd : dec buf with ⟨_ | _ | a, rest⟩
    · rfl
    · rfl
    · have hlt := hdec.progress hd
      simp only
      rw [ih (m := m) (by omega) (by omega)]

theorem Stable.drain_item {buf rest : List β} {a : α} (h : dec buf = (.ok (some a), rest)) :
    drain dec buf = (drain dec rest).prepend [a] := by
  have hlt := hdec.progress h
  unfold drain
  rw [hdec.drainUpTo_congr (Nat.lt_succ_self rest.length) hlt]
  simp only [drainUpTo, h]

omit hdec in
theorem drain_more {buf rest : List β} (h : dec buf = (.ok none, rest)) :
    drain dec buf = ⟨[], none, rest⟩ := by
  simp only [drain, drainUpTo, h]

omit hdec in
theorem drain_failed {buf rest : List β} {e : ε} (h : dec buf = (.error e, rest)) :
    drain dec buf = ⟨[], some e, rest⟩ := by
  simp only [drain, drainUpTo, h]

/-- Feeding a chunk after draining is draining the longer buffer. -/
theorem Stable.feed_drain (buf x : List β) :
    feed dec (drain dec buf) x = drain dec (buf ++ x) := by
  induction hn : buf.length using Nat.strongRecOn generalizing buf with
  | ind n ih =>
    rcases hd : dec buf with ⟨e | _ | a, rest⟩
    · rw [drain_failed hd, drain_failed (hdec.failed x hd)]
      rfl
    · obtain rfl := hdec.more hd
      rw [drain_more hd]
      simp [feed]
    · have hlt := hdec.progress hd
      have hrest := ih rest.length (by omega) rest rfl
      rw [hdec.drain_item hd, hdec.drain_item (hdec.item x hd), ← hrest]
      -- the item in front does not change what the chunk adds behind it
      unfold feed
      cases he : (drain dec rest).error <;> simp [Outcome.prepend, he]

/-- **Chunks do not matter.** What comes out of the chunks is what comes out
of the whole stream at once. -/
theorem Stable.feedAll_eq (hnil : dec [] = (.ok none, [])) (chunks : List (List β)) :
    feedAll dec chunks = drain dec chunks.flatten := by
  induction chunks using List.reverseRecOn with
  | nil => exact (drain_more hnil).symm
  | append_singleton chunks x ih =>
    have hfold : feedAll dec (chunks ++ [x]) = feed dec (feedAll dec chunks) x := by
      simp [feedAll]
    rw [hfold, ih, hdec.feed_drain]
    simp

/-- **What has arrived is a front part.** Of items in a row, each decoded from its
own frame and from no less, any part of the stream that has arrived yields those
that have arrived in full. -/
theorem Stable.drain_prefix (hnil : dec [] = (.ok none, [])) {frame : α → List β} {as : List α}
    (hwhole : ∀ a ∈ as, ∀ x, dec (frame a ++ x) = (.ok (some a), x))
    (hpart : ∀ a ∈ as, ∀ pre, pre <+: frame a → pre.length < (frame a).length →
      dec pre = (.ok none, pre))
    {buf : List β} (h : buf <+: as.flatMap frame) :
    ∃ rest, drain dec buf = ⟨inFull frame as buf.length, none, rest⟩ ∧
      buf = (inFull frame as buf.length).flatMap frame ++ rest := by
  induction as generalizing buf with
  | nil =>
    obtain rfl := List.prefix_nil.mp h
    exact ⟨[], drain_more hnil, rfl⟩
  | cons a as ih =>
    rw [List.forall_mem_cons] at hwhole hpart
    rw [List.flatMap_cons] at h
    by_cases hframe : frame a <+: buf
    · obtain ⟨buf, rfl⟩ := hframe
      obtain ⟨rest, hdrain, hbuf⟩ :=
        ih hwhole.2 hpart.2 ((List.prefix_append_right_inj _).mp h)
      have hfull : inFull frame (a :: as) (frame a ++ buf).length =
          a :: inFull frame as buf.length := by
        rw [inFull, List.length_append, if_pos (Nat.le_add_right _ _), Nat.add_sub_cancel_left]
      refine ⟨rest, ?_, ?_⟩
      · rw [hdec.drain_item (hwhole.1 buf), hdrain, hfull]
        rfl
      · rw [hfull, List.flatMap_cons, List.append_assoc, ← hbuf]
    · have hshort : buf <+: frame a :=
        (List.prefix_or_prefix_of_prefix h (List.prefix_append _ _)).resolve_right hframe
      have hlt : buf.length < (frame a).length := by
        apply Nat.lt_of_le_of_ne hshort.length_le
        intro heq
        rw [hshort.eq_of_length heq] at hframe
        exact hframe List.prefix_rfl
      have hfull : inFull frame (a :: as) buf.length = [] := if_neg (Nat.not_le.mpr hlt)
      refine ⟨buf, ?_, ?_⟩
      · rw [hfull]
        exact drain_more (hpart.1 buf hshort hlt)
      · rw [hfull]
        rfl

end Stable

end Incremental
