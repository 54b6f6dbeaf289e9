import Reckoner.Text.Hex

/-!
Percent encoding: bytes of UTF-8 written as two hexadecimal digits behind a percent sign.
-/

namespace Reckoner.Web
open Text

/-- A character as it stands, or a byte that was written with a percent sign. -/
inductive Piece where
  | char (c : Char)
  | byte (n : Nat)

def pieces : List Char → List Piece
  | [] => []
  | ['%'] => [.char '%']
  | ['%', c] => [.char '%', .char c]
  | '%' :: a :: b :: cs =>
    match hexValue? a, hexValue? b with
    | some x, some y => .byte (x * 16 + y) :: pieces cs
    | _, _ => .char '%' :: pieces (a :: b :: cs)
  | c :: cs => .char c :: pieces cs

/-- The number of bytes that follow a first byte of UTF-8, and the bits that it carries. -/
def lead? (n : Nat) : Option (Nat × Nat) :=
  if n < 0x80 then some (0, n)
  else if 0xC2 ≤ n ∧ n < 0xE0 then some (1, n - 0xC0)
  else if 0xE0 ≤ n ∧ n < 0xF0 then some (2, n - 0xE0)
  else if 0xF0 ≤ n ∧ n < 0xF5 then some (3, n - 0xF0)
  else none

def follow? : Nat → Nat → List Piece → Option (Nat × List Piece)
  | 0, n, ps => some (n, ps)
  | k + 1, n, .byte b :: ps =>
    if 0x80 ≤ b ∧ b < 0xC0 then follow? k (n * 64 + (b - 0x80)) ps else none
  | _ + 1, _, _ => none

def leastFor : Nat → Nat
  | 0 => 0
  | 1 => 0x80
  | 2 => 0x800
  | _ => 0x10000

def encoded? (n : Nat) (ps : List Piece) : Option (Char × List Piece) := do
  let (k, bits) ← lead? n
  let (code, rest) ← follow? k bits ps
  if leastFor k ≤ code ∧ code.isValidChar then some (Char.ofNat code, rest) else none

theorem length_of_follow? {k n m : Nat} {ps rest : List Piece}
    (h : follow? k n ps = some (m, rest)) : rest.length ≤ ps.length := by
  induction k generalizing n ps with
  | zero =>
    simp only [follow?, Option.some.injEq, Prod.mk.injEq] at h
    exact Nat.le_of_eq (congrArg List.length h.2.symm)
  | succ k ih =>
    cases ps with
    | nil => simp [follow?] at h
    | cons p ps =>
      cases p with
      | char c => simp [follow?] at h
      | byte b =>
        simp only [follow?] at h
        split at h
        · exact Nat.le_succ_of_le (ih h)
        · simp at h

theorem length_of_encoded? {n : Nat} {c : Char} {ps rest : List Piece}
    (h : encoded? n ps = some (c, rest)) : rest.length ≤ ps.length := by
  unfold encoded? at h
  cases hl : lead? n with
  | none => simp [hl] at h
  | some l =>
    cases hf : follow? l.1 l.2 ps with
    | none => simp [hl, hf] at h
    | some f =>
      simp only [hl, hf, Option.bind_eq_bind, Option.bind_some] at h
      split at h
      · simp only [Option.some.injEq, Prod.mk.injEq] at h
        exact h.2 ▸ length_of_follow? hf
      · simp at h

/-- Bytes that are no UTF-8 become replacement characters. -/
def decode (ps : List Piece) : List Char :=
  match ps with
  | [] => []
  | .char c :: ps => c :: decode ps
  | .byte n :: ps =>
    match h : encoded? n ps with
    | some (c, rest) =>
      have := length_of_encoded? h
      c :: decode rest
    | none => Char.ofNat 0xFFFD :: decode ps
termination_by ps.length
decreasing_by all_goals (simp only [List.length_cons]; omega)

def percentDecoded (cs : List Char) : List Char :=
  decode (pieces cs)

end Reckoner.Web
