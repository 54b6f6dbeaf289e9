import Reckoner.Proofs.Expression.Tiling

/-!
The tokens of a text within a longer one. They are the tokens that it has on its own, only further on,
and so are its derivations and its faults.
-/

namespace Reckoner
open Text

/-! Further on by `k` characters. -/

namespace Token

def moved (k : Nat) (t : Token) : Token :=
  { t with position := t.position + k }

variable {t : Token}

theorem kind_moved (t : Token) (k : Nat) : (t.moved k).kind = t.kind := rfl

theorem Readable.moved (h : t.Readable) (k : Nat) : (t.moved k).Readable := h

end Token

namespace Invalid

def moved (k : Nat) : Invalid → Invalid
  | character c p => character c (p + k)
  | point p => point (p + k)
  | unterminated p => unterminated (p + k)
  | expectedOperand t => expectedOperand (t.moved k)
  | expectedClosing t => expectedClosing (t.moved k)
  | trailing t => trailing (t.moved k)
  | tooDeep limit t => tooDeep limit (t.moved k)
  | tooLong limit => tooLong (limit + k)

theorem position_moved (k : Nat) (i : Invalid) : (i.moved k).position = i.position + k := by
  cases i <;> rfl

end Invalid

namespace Derivation

def moved (k : Nat) {p : Phrase} : Derivation p → Derivation p
  | number t ht => number (t.moved k) ((t.kind_moved k).trans ht)
  | minus t ht inner => minus (t.moved k) ((t.kind_moved k).trans ht) (inner.moved k)
  | parens t ht inner u hu =>
    parens (t.moved k) ((t.kind_moved k).trans ht) (inner.moved k) (u.moved k)
      ((u.kind_moved k).trans hu)
  | single inner => single (inner.moved k)
  | @link rank left t op ht right =>
    link (left.moved k) (t.moved k) op ((congrArg rank.operator? (t.kind_moved k)).trans ht)
      (right.moved k)

variable {p : Phrase}

theorem tokens_moved (k : Nat) (d : Derivation p) :
    (d.moved k).tokens = d.tokens.map (Token.moved k) := by
  induction d with
  | number t ht => rfl
  | minus t ht inner ih => rw [moved, tokens, ih, tokens, List.map_cons]
  | parens t ht inner u hu ih => simp [moved, tokens, ih]
  | single inner ih => exact ih
  | link left t op ht right ihl ihr => simp [moved, tokens, ihl, ihr]

theorem tree_moved (k : Nat) (d : Derivation p) : (d.moved k).tree = d.tree := by
  induction d with
  | number t ht => rfl
  | minus t ht inner ih => rw [moved, tree, ih, tree]
  | parens t ht inner u hu ih => exact ih
  | single inner ih => exact ih
  | link left t op ht right ihl ihr => rw [moved, tree, ihl, ihr, tree]

end Derivation

theorem Stuck.moved (k : Nat) {p : Phrase} {pre : List Token} {t : Token} {i : Invalid}
    (h : Stuck p pre t i) : Stuck p (pre.map (Token.moved k)) (t.moved k) (i.moved k) := by
  induction h with
  | operand hn hm hl => exact .operand hn hm hl
  | minus m hm h ih => exact .minus (m.moved k) hm ih
  | inner o ho h ih => exact .inner (o.moved k) ho ih
  | closing o ho d hd ht =>
    rw [List.map_cons, ← d.tokens_moved]
    exact .closing (o.moved k) ho (d.moved k) hd ht
  | single h ih => exact .single ih
  | link d m op hm h ih =>
    rw [List.map_append, List.map_cons, ← d.tokens_moved]
    exact .link (d.moved k) (m.moved k) op hm ih

theorem Blocked.moved (k : Nat) {pre : List Token} {t : Token} {i : Invalid}
    (h : Blocked pre t i) : Blocked (pre.map (Token.moved k)) (t.moved k) (i.moved k) := by
  cases h with
  | inside h => exact .inside (h.moved k)
  | behind d hd ht =>
    rw [← d.tokens_moved]
    exact .behind (d.moved k) hd ht

namespace Token

variable {c : Char} {cs rest : List Char} {position : Nat}

theorem scanFrom_misplaced {i : Nat} (hn : isNumeric c = true)
    (hi : misplacedPoint? (c :: cs.takeWhile isNumeric) = some i) :
    scanFrom position (c :: cs) = .error (.point (position + i)) := by
  rw [scanFrom.eq_def]
  simp only [isBlank_of_isNumeric hn, hn, hi, Bool.false_eq_true, if_false, if_true]

theorem scanFrom_run (hn : isNumeric c = true)
    (hi : misplacedPoint? (c :: cs.takeWhile isNumeric) = none) :
    scanFrom position (c :: cs) =
      (⟨.number, String.ofList (c :: cs.takeWhile isNumeric), position⟩ :: ·) <$>
        scanFrom (position + (c :: cs.takeWhile isNumeric).length) (cs.dropWhile isNumeric) := by
  rw [run_append_rest c cs]
  exact scanFrom_numeral (numeral_run hn hi) (endsNumber_dropWhile cs)

theorem scanFrom_moved (k position : Nat) (cs : List Char) :
    scanFrom (position + k) cs =
      ((scanFrom position cs).map (List.map (moved k))).mapError (Invalid.moved k) := by
  fun_induction scanFrom position cs
  case case1 position =>
    rw [scanFrom_nil]
    rfl
  case case2 position c cs hb ih =>
    rw [scanFrom_blank hb, Nat.add_right_comm, ih]
  case case3 position c cs hb hn run i hi =>
    rw [scanFrom_misplaced hn hi, Nat.add_right_comm]
    rfl
  case case4 position c cs hb hn run hi ih =>
    rw [scanFrom_run hn hi, Nat.add_right_comm, ih]
    cases scanFrom (position + run.length) (cs.dropWhile isNumeric) <;> rfl
  case case5 position c cs hb hn hk =>
    rw [scanFrom_fault (Bool.eq_false_iff.mpr hb) (Bool.eq_false_iff.mpr hn) hk]
    rfl
  case case6 position c cs hb hn kind hk ih =>
    rw [scanFrom_symbol hk, Nat.add_right_comm, ih]
    cases scanFrom (position + 1) cs <;> rfl

theorem EndsNumber.append (h : EndsNumber cs) (hrest : EndsNumber rest) :
    EndsNumber (cs ++ rest) := by
  cases cs with
  | nil => exact hrest
  | cons c cs => exact endsNumber_cons (h c rfl)

theorem takeWhile_append_endsNumber (cs : List Char) (hrest : EndsNumber rest) :
    (cs ++ rest).takeWhile isNumeric = cs.takeWhile isNumeric := by
  induction cs with
  | nil =>
    cases rest with
    | nil => rfl
    | cons d ds => simp [hrest d rfl]
  | cons c cs ih =>
    rw [List.cons_append, List.takeWhile_cons, List.takeWhile_cons, ih]

theorem map_cons_bind {scanned behind : Except Invalid (List Token)} (t : Token)
    (h : ∀ ts, scanned = .ok ts → ts ≠ []) :
    ((t :: ·) <$> scanned >>= fun ts => (ts.dropLast ++ ·) <$> behind) =
      (t :: ·) <$> (scanned >>= fun ts => (ts.dropLast ++ ·) <$> behind) := by
  cases scanned with
  | error i => rfl
  | ok ts =>
    rw [ok_bind, map_ok, ok_bind, List.dropLast_cons_of_ne_nil (h ts rfl), Functor.map_map]
    rfl

theorem scanFrom_ne_nil {ts : List Token} (h : scanFrom position cs = .ok ts) : ts ≠ [] := by
  obtain ⟨body, rfl, -⟩ := scanFrom_ok h
  exact List.append_ne_nil_of_right_ne_nil body (List.cons_ne_nil _ _)

/-- The scan of a text goes on with what stands behind it, in place of the end of input. A fault in
the text stays one. -/
theorem scanFrom_append (position : Nat) (cs : List Char) (hrest : EndsNumber rest) :
    scanFrom position (cs ++ rest) =
      scanFrom position cs >>= fun ts =>
        (ts.dropLast ++ ·) <$> scanFrom (position + cs.length) rest := by
  fun_induction scanFrom position cs
  case case1 position => exact (id_map _).symm
  case case2 position c cs hb ih =>
    rw [List.cons_append, scanFrom_blank hb, ih, List.length_cons, Nat.add_right_comm, Nat.add_assoc]
  case case3 position c cs hb hn run i hi =>
    have hi : misplacedPoint? (c :: cs.takeWhile isNumeric) = some i := hi
    rw [← takeWhile_append_endsNumber cs hrest] at hi
    exact scanFrom_misplaced hn hi
  case case4 position c cs hb hn run hi ih =>
    have hsplit : c :: cs = run ++ cs.dropWhile isNumeric := run_append_rest c cs
    have htext : c :: cs ++ rest = run ++ (cs.dropWhile isNumeric ++ rest) := by
      rw [← List.append_assoc, ← hsplit]
    have hlen : position + run.length + (cs.dropWhile isNumeric).length =
        position + (c :: cs).length := by
      rw [hsplit, List.length_append, Nat.add_assoc]
    have hends := (endsNumber_dropWhile cs).append hrest
    rw [htext, scanFrom_numeral (numeral_run hn hi) hends, ih, hlen,
      ← map_cons_bind _ fun ts => scanFrom_ne_nil]
    cases scanFrom (position + run.length) (cs.dropWhile isNumeric) <;> rfl
  case case5 position c cs hb hn hk =>
    exact scanFrom_fault (Bool.eq_false_iff.mpr hb) (Bool.eq_false_iff.mpr hn) hk
  case case6 position c cs hb hn kind hk ih =>
    rw [List.cons_append, scanFrom_symbol hk, ih, ← map_cons_bind _ fun ts => scanFrom_ne_nil,
      List.length_cons, Nat.add_right_comm, Nat.add_assoc]
    cases scanFrom (position + 1) cs <;> rfl

end Token
end Reckoner
