import Mathlib.Algebra.BigOperators.Group.List.Basic
import Mathlib.Algebra.GroupWithZero.Nat
import Mathlib.Tactic.Common

/-!
# Length-prefixed records

A list of records is written as one string: every record is preceded by a header of fixed width
that holds its length (`frame`).  The header is abstracted into a `HeaderCodec`: lengths below
`bound` are recovered exactly, longer ones are whatever the codec makes of them.

`Parses c s rs` is the grammar read from the left, with no reference to how a reader loops.
`parses_iff` identifies the two: `s` parses as `rs` exactly when `s` is the frame of `rs` and
every record is short enough for its header.  A reader that decides `Parses` therefore inverts
`frame` on such lists and accepts nothing but frames.
-/

namespace LengthPrefixed

/-- A fixed-width header for record lengths, faithful below `bound`. -/
structure HeaderCodec (β : Type*) where
  width : ℕ
  bound : ℕ
  encode : ℕ → List β
  decode : List β → ℕ
  encode_length : ∀ n, (encode n).length = width
  /-- Lengths below `bound` are recovered. -/
  decode_encode : ∀ n, n < bound → decode (encode n) = n
  /-- Every header of the right width announces a length below `bound`. -/
  decode_lt : ∀ h, h.length = width → decode h < bound
  /-- A length has one header. -/
  encode_decode : ∀ h, h.length = width → encode (decode h) = h

variable {β : Type*} (c : HeaderCodec β)

/-- The records one after the other, each behind its header. -/
def frame (rs : List (List β)) : List β :=
  rs.flatMap fun r => c.encode r.length ++ r

@[simp] theorem frame_nil : frame c [] = [] := rfl

@[simp] theorem frame_cons (r : List β) (rs : List (List β)) :
    frame c (r :: rs) = c.encode r.length ++ (r ++ frame c rs) := by
  simp [frame]

/-- The size of a frame: each record costs its length and one header. -/
theorem frame_length (rs : List (List β)) :
    (frame c rs).length = (rs.map fun r => c.width + r.length).sum := by
  induction rs with
  | nil => rfl
  | cons r rs ih =>
    rw [frame_cons, List.length_append, List.length_append, c.encode_length, ih, List.map_cons,
      List.sum_cons]
    omega

/-- `Parses c s rs`: reading headers and records from the left of `s` yields `rs` and leaves
nothing over. -/
inductive Parses : List β → List (List β) → Prop
  | nil : Parses [] []
  | cons (h r s : List β) (rs : List (List β)) (hlen : h.length = c.width)
      (hdec : c.decode h = r.length) (hs : Parses s rs) : Parses (h ++ (r ++ s)) (r :: rs)

/-- A frame parses as its records when every record fits its header. -/
theorem parses_frame (rs : List (List β)) (hrs : ∀ r ∈ rs, r.length < c.bound) :
    Parses c (frame c rs) rs := by
  induction rs with
  | nil => exact .nil
  | cons r rs ih =>
    rw [frame_cons]
    refine .cons _ r _ rs (c.encode_length _) (c.decode_encode _ (hrs r (List.mem_cons_self ..))) ?_
    exact ih fun r' hr' => hrs r' (List.mem_cons_of_mem _ hr')

variable {c}

/-- What parses is a frame. -/
theorem Parses.eq_frame {s : List β} {rs : List (List β)} (h : Parses c s rs) :
    s = frame c rs := by
  induction h with
  | nil => rfl
  | cons h r s rs hlen hdec _ ih =>
    rw [frame_cons, ← hdec, c.encode_decode h hlen, ih]

/-- What parses has records that fit their headers. -/
theorem Parses.length_lt {s : List β} {rs : List (List β)} (h : Parses c s rs) :
    ∀ r ∈ rs, r.length < c.bound := by
  induction h with
  | nil => simp
  | cons h r s rs hlen hdec _ ih =>
    intro r' hr'
    rcases List.mem_cons.mp hr' with rfl | hr'
    · rw [← hdec]; exact c.decode_lt h hlen
    · exact ih r' hr'

/-- **The grammar is `frame` on short records.** -/
theorem parses_iff {s : List β} {rs : List (List β)} :
    Parses c s rs ↔ s = frame c rs ∧ ∀ r ∈ rs, r.length < c.bound := by
  constructor
  · intro h
    exact ⟨h.eq_frame, h.length_lt⟩
  · rintro ⟨rfl, hrs⟩
    exact parses_frame c rs hrs

end LengthPrefixed
