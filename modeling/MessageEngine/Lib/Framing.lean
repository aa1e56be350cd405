import Mathlib.Data.List.Infix

/-!
# Frames in a stream

A stream of symbols carries frames: a header of fixed size, which tells the size of the body or is
refused, and then the body. `next` reads one frame off the front of a stream, `decode` as many as it
can up to a bound.

Reading back a stream of whole frames gives the bodies, whatever unfinished frame comes after them
(`decode_encode`); a frame that is cut short is not read at all (`next_of_short`).
-/

namespace Framing

variable {α : Type}

/-- How frames are delimited: the length of a header, and the size of the body it announces. -/
structure Format (α : Type) where
  header : Nat
  size : List α → Option Nat

/-- The body of the first frame of a stream, and what follows it. -/
def next (f : Format α) (stream : List α) : Option (List α × List α) :=
  if f.header ≤ stream.length then
    match f.size (stream.take f.header) with
    | some n =>
      if n ≤ (stream.drop f.header).length then
        some ((stream.drop f.header).take n, (stream.drop f.header).drop n)
      else none
    | none => none
  else none

/-- The bodies of the first frames of a stream, `n` at most. -/
def decode (f : Format α) : Nat → List α → List (List α)
  | 0, _ => []
  | n + 1, stream =>
    match next f stream with
    | some (body, rest) => body :: decode f n rest
    | none => []

/-- The header announces the body. -/
structure Announces (f : Format α) (head body : List α) : Prop where
  length : head.length = f.header
  size : f.size head = some body.length

variable {f : Format α} {head : List α → List α} {body : List α}

/-- A whole frame at the front is read. -/
theorem next_append (h : Announces f (head body) body) (rest : List α) :
    next f (head body ++ body ++ rest) = some (body, rest) := by
  have hlen : f.header ≤ (head body ++ body ++ rest).length := by simp [h.length]
  have htake : (head body ++ body ++ rest).take f.header = head body := by
    rw [List.append_assoc, ← h.length, List.take_left]
  have hdrop : (head body ++ body ++ rest).drop f.header = body ++ rest := by
    rw [List.append_assoc, ← h.length, List.drop_left]
  rw [next, if_pos hlen, htake, h.size, hdrop]
  simp

/-- A frame that is cut short is not read. -/
theorem next_of_short (h : Announces f (head body) body) {k : Nat}
    (hk : k < (head body ++ body).length) : next f ((head body ++ body).take k) = none := by
  rw [List.length_append, h.length] at hk
  unfold next
  split
  case isFalse hshort => rfl
  case isTrue hlong =>
    have hle : f.header ≤ k := by
      rw [List.length_take] at hlong
      omega
    have hhead : ((head body ++ body).take k).take f.header = head body := by
      rw [List.take_take, Nat.min_eq_left hle, ← h.length, List.take_left]
    rw [hhead, h.size]
    simp only
    rw [if_neg]
    simp only [List.length_drop, List.length_take, List.length_append, h.length]
    omega

/-- The frames of a list of bodies, one after the other. -/
def encode (head : List α → List α) (bodies : List (List α)) : List α :=
  bodies.flatMap fun body => head body ++ body

/-- Whole frames are read back in order, and nothing after them. -/
theorem decode_encode {bodies : List (List α)} (h : ∀ body ∈ bodies, Announces f (head body) body)
    {tail : List α} (htail : next f tail = none) (n : Nat) :
    decode f n (encode head bodies ++ tail) = bodies.take n := by
  induction bodies generalizing n with
  | nil =>
    cases n with
    | zero => rfl
    | succ n => simp [encode, decode, htail]
  | cons body bodies ih =>
    cases n with
    | zero => rfl
    | succ n =>
      have hstream : encode head (body :: bodies) ++ tail =
          head body ++ body ++ (encode head bodies ++ tail) := by
        simp [encode]
      rw [decode, hstream, next_append (h body List.mem_cons_self)]
      simp only [List.take_succ_cons]
      rw [ih (fun b hb => h b (List.mem_cons_of_mem body hb))]

end Framing
