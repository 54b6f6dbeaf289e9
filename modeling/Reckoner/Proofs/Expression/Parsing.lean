import Reckoner.Proofs.Expression.Blame
import Reckoner.Proofs.Expression.Reading

/-!
What the rules make of a derivation with something behind it: within the limit they read its tree and
stop, and beyond the limit they fail for it.
-/

namespace Reckoner
open Expression

/-- A limit lets a height or a number of open constructs through; a negative limit is as good as
zero. -/
def Fits (limit : Option Int) (n : Nat) : Prop :=
  ∀ m ∈ limit, (n : Int) ≤ max m 0

theorem fits_zero (limit : Option Int) : Fits limit 0 := by
  intro m _
  omega

theorem fits_none (n : Nat) : Fits none n := by
  intro m h
  cases h

theorem fits_some {m : Int} {n : Nat} : Fits (some m) n ↔ (n : Int) ≤ max m 0 := by
  simp [Fits]

theorem Fits.mono {limit : Option Int} {m n : Nat} (h : Fits limit n) (hmn : m ≤ n) :
    Fits limit m := by
  intro k hk
  have := h k hk
  omega

theorem fits_max {limit : Option Int} {m n : Nat} :
    Fits limit (max m n) ↔ Fits limit m ∧ Fits limit n := by
  constructor
  · intro h
    exact ⟨h.mono (Nat.le_max_left m n), h.mono (Nat.le_max_right m n)⟩
  · rintro ⟨hm, hn⟩ k hk
    have := hm k hk
    have := hn k hk
    omega

theorem withinLimit_of_fits {limit : Option Int} {n : Nat} (h : Fits limit (n + 1)) (t : Token) :
    withinLimit limit (n + 1) t = .ok () := by
  cases limit with
  | none => rfl
  | some m =>
    rw [fits_some] at h
    rw [withinLimit]
    exact if_neg (by omega)

theorem withinLimit_of_not_fits {limit : Option Int} {n : Nat} (h : ¬ Fits limit (n + 1))
    (t : Token) :
    ∃ m, limit = some m ∧ withinLimit limit (n + 1) t = .error (.invalid (.tooDeep m t)) := by
  cases limit with
  | none => exact absurd (fits_none _) h
  | some m =>
    rw [fits_some] at h
    refine ⟨m, rfl, ?_⟩
    rw [withinLimit]
    exact if_pos (by omega)

def TooDeep (limit : Option Int) {α : Type} (x : Except Failure α) : Prop :=
  ∃ m t, limit = some m ∧ x = .error (.invalid (.tooDeep m t))

theorem tooDeep_of_not_fits {limit : Option Int} {n : Nat} (h : ¬ Fits limit (n + 1)) (t : Token) :
    TooDeep limit (withinLimit limit (n + 1) t) := by
  obtain ⟨m, hm, hx⟩ := withinLimit_of_not_fits h t
  exact ⟨m, t, hm, hx⟩

theorem TooDeep.bind {limit : Option Int} {α β : Type} {x : Except Failure α} (h : TooDeep limit x)
    (f : α → Except Failure β) : TooDeep limit (x >>= f) := by
  obtain ⟨m, t, hm, hx⟩ := h
  exact ⟨m, t, hm, by rw [hx]; rfl⟩

namespace Phrase

theorem resume_ended {limit : Option Int} {last : Token} {depth : Nat} {p : Phrase} {r : Reading}
    (h : p.Ended (r.rest.headD last).kind) : p.resume limit last depth r = .ok r := by
  obtain ⟨e, n, ts⟩ := r
  cases p with
  | factor => rfl
  | chain rank =>
    cases ts with
    | nil => exact resume_nil limit last depth rank e n
    | cons t ts => exact resume_stop limit last depth (ended_chain.mp h).1

/-- A token of this kind can stand behind what has been read of the phrase: it may go on with a
chain, but not with its last part. -/
def Allows : Phrase → TokenKind → Prop
  | factor, _ => True
  | chain rank, k => rank.part.Ended k

theorem allows_part (rank : Rank) (k : TokenKind) : rank.part.Allows k := by
  cases rank with
  | product => trivial
  | sum => trivial

theorem Ended.allows {p : Phrase} {k : TokenKind} (h : p.Ended k) : p.Allows k := by
  cases p with
  | factor => trivial
  | chain rank => exact (ended_chain.mp h).2

end Phrase

namespace Derivation
open Phrase

variable {p : Phrase} {limit : Option Int} {last : Token}

theorem read_tokens (d : Derivation p) (depth : Nat) (rest : List Token)
    (hrest : p.Allows (rest.headD last).kind) (hh : Fits limit d.height)
    (hn : Fits limit (depth + d.nesting)) :
    p.read limit last depth (d.tokens ++ rest) =
      d.tree.mapError .unreadable >>= fun e =>
        p.resume limit last depth ⟨e, d.height, rest⟩ := by
  -- What stands behind varies: each part is read with the rest of the derivation behind it.
  induction d generalizing depth rest with
  | number t ht =>
    rw [tokens, List.singleton_append, read_number limit last depth ht, tree]
    cases Binary64.ofText? t.lexeme with
    | none => rfl
    | some x => rfl
  | minus t ht inner ih =>
    have hd : Fits limit (depth + 1) := hn.mono (by simp only [nesting]; omega)
    have hi := ih (depth + 1) rest trivial (hh.mono (by simp only [height]; omega))
      (hn.mono (by simp only [nesting]; omega))
    rw [tokens, List.cons_append, read_minus limit last depth ht, withinLimit_of_fits hd, ok_bind,
      hi, tree]
    cases inner.tree with
    | error u => rfl
    | ok e =>
      change (withinLimit limit (inner.height + 1) t >>= _) = _
      rw [withinLimit_of_fits hh]
      rfl
  | parens t ht inner u hu ih =>
    have hd : Fits limit (depth + 1) := hn.mono (by simp only [nesting]; omega)
    have hs : (chain .sum).Ended u.kind := by simp [Ended, Rank.operator?, hu]
    have hi := ih (depth + 1) (u :: rest) hs.allows hh
      (hn.mono (by simp only [nesting]; omega))
    rw [tokens, List.cons_append, List.append_assoc, List.singleton_append,
      read_parens limit last depth ht, withinLimit_of_fits hd, ok_bind, hi, tree]
    cases inner.tree with
    | error u => rfl
    | ok e =>
      change ((chain .sum).resume limit last (depth + 1) ⟨e, inner.height, u :: rest⟩ >>= _) = _
      rw [resume_ended hs, ok_bind, close]
      exact if_pos hu
  | @single rank inner ih =>
    have hp : rank.part.Ended (rest.headD last).kind := hrest
    rw [tokens, read_chain, ih depth rest (allows_part rank _) hh hn, tree]
    cases inner.tree with
    | error u => rfl
    | ok e =>
      change (rank.part.resume limit last depth ⟨e, inner.height, rest⟩ >>= _) = _
      rw [resume_ended hp]
      rfl
  | @link rank left t op ht right ihl ihr =>
    have hp : rank.part.Ended (rest.headD last).kind := hrest
    have hm := fits_max.mp (hh.mono (Nat.le_succ (max left.height right.height)))
    have hl := ihl depth (t :: (right.tokens ++ rest)) (ended_part ht) hm.1
      (hn.mono (by simp only [nesting]; omega))
    have hr := ihr depth rest (allows_part rank _) hm.2
      (hn.mono (by simp only [nesting]; omega))
    rw [tokens, List.append_assoc, List.cons_append, hl, tree]
    cases left.tree with
    | error u => rfl
    | ok a =>
      change ((chain rank).resume limit last depth ⟨a, left.height, t :: (right.tokens ++ rest)⟩) = _
      rw [resume_link limit last depth ht, hr]
      cases right.tree with
      | error u => rfl
      | ok b =>
        change ((rank.part.resume limit last depth ⟨b, right.height, rest⟩) >>= _) = _
        rw [resume_ended hp, ok_bind]
        change (withinLimit limit (max left.height right.height + 1) t >>= _) = _
        rw [withinLimit_of_fits hh]
        rfl

theorem read_tree (d : Derivation p) {e : Expression} (he : d.tree = .ok e) (depth : Nat)
    (rest : List Token) (hrest : p.Allows (rest.headD last).kind) (hh : Fits limit d.height)
    (hn : Fits limit (depth + d.nesting)) :
    p.read limit last depth (d.tokens ++ rest) = p.resume limit last depth ⟨e, d.height, rest⟩ := by
  rw [d.read_tokens depth rest hrest hh hn, he]
  rfl

theorem tooDeep_tokens (d : Derivation p) {e : Expression} (he : d.tree = .ok e) (depth : Nat)
    (rest : List Token) (hrest : p.Allows (rest.headD last).kind) (hd : Fits limit depth)
    (h : ¬ (Fits limit d.height ∧ Fits limit (depth + d.nesting))) :
    TooDeep limit (p.read limit last depth (d.tokens ++ rest)) := by
  induction d generalizing e depth rest with
  | number t ht => exact absurd ⟨fits_zero limit, hd⟩ h
  | minus t ht inner ih =>
    obtain ⟨a, ha, -⟩ := bind_eq_ok he
    rw [tokens, List.cons_append, read_minus limit last depth ht]
    by_cases hd' : Fits limit (depth + 1)
    · rw [withinLimit_of_fits hd', ok_bind]
      by_cases hi : Fits limit inner.height ∧ Fits limit (depth + 1 + inner.nesting)
      · rw [inner.read_tree ha (depth + 1) rest trivial hi.1 hi.2]
        change TooDeep limit (withinLimit limit (inner.height + 1) t >>= _)
        refine (tooDeep_of_not_fits ?_ t).bind _
        intro hh
        exact h ⟨hh, hi.2.mono (by simp only [nesting]; omega)⟩
      · exact (ih ha (depth + 1) rest trivial hd' hi).bind _
    · exact (tooDeep_of_not_fits hd' t).bind _
  | parens t ht inner u hu ih =>
    have hs : (chain .sum).Ended u.kind := by simp [Ended, Rank.operator?, hu]
    rw [tokens, List.cons_append, List.append_assoc, List.singleton_append,
      read_parens limit last depth ht]
    by_cases hd' : Fits limit (depth + 1)
    · rw [withinLimit_of_fits hd', ok_bind]
      refine (ih he (depth + 1) (u :: rest) hs.allows hd' ?_).bind _
      intro hi
      exact h ⟨hi.1, hi.2.mono (by simp only [nesting]; omega)⟩
    · exact (tooDeep_of_not_fits hd' t).bind _
  | @single rank inner ih =>
    rw [tokens, read_chain]
    exact (ih he depth rest (allows_part rank _) hd h).bind _
  | @link rank left t op ht right ihl ihr =>
    have hp : rank.part.Ended (rest.headD last).kind := hrest
    obtain ⟨a, ha, he⟩ := bind_eq_ok he
    obtain ⟨b, hb, -⟩ := bind_eq_ok he
    rw [tokens, List.append_assoc, List.cons_append]
    by_cases hl : Fits limit left.height ∧ Fits limit (depth + left.nesting)
    · rw [left.read_tree ha depth (t :: (right.tokens ++ rest)) (ended_part ht) hl.1 hl.2,
        resume_link limit last depth ht]
      by_cases hr : Fits limit right.height ∧ Fits limit (depth + right.nesting)
      · rw [right.read_tree hb depth rest (allows_part rank _) hr.1 hr.2, resume_ended hp, ok_bind]
        refine (tooDeep_of_not_fits ?_ t).bind _
        intro hh
        refine h ⟨hh, ?_⟩
        rw [nesting, ← Nat.add_max_add_left]
        exact fits_max.mpr ⟨hl.2, hr.2⟩
      · exact (ihr hb depth rest (allows_part rank _) hd hr).bind _
    · exact ihl ha depth (t :: (right.tokens ++ rest)) (ended_part ht) hd hl

end Derivation
def FailsFor (limit : Option Int) (i : Invalid) {α : Type} (x : Except Failure α) : Prop :=
  x = .error (.invalid i) ∨ TooDeep limit x

theorem FailsFor.bind {limit : Option Int} {i : Invalid} {α β : Type} {x : Except Failure α}
    (h : FailsFor limit i x) (f : α → Except Failure β) : FailsFor limit i (x >>= f) := by
  cases h with
  | inl h => exact .inl (by rw [h]; rfl)
  | inr h => exact .inr (h.bind f)

theorem FailsFor.none {i : Invalid} {α : Type} {x : Except Failure α} (h : FailsFor none i x) :
    x = .error (.invalid i) := by
  cases h with
  | inl h => exact h
  | inr h =>
    obtain ⟨m, t, hm, -⟩ := h
    cases hm

theorem Phrase.close_error {last t : Token} {e : Expression} {n : Nat} {post : List Token}
    (hpost : post.headD last = t) (ht : t.kind ≠ .rparen) :
    close last ⟨e, n, post⟩ = .error (.invalid (.expectedClosing t)) := by
  subst hpost
  cases post with
  | nil => rfl
  | cons u us => exact if_neg ht

open Phrase in
theorem Stuck.read {limit : Option Int} {last : Token} {p : Phrase} {pre : List Token} {t : Token}
    {i : Invalid} (h : Stuck p pre t i) (hpre : ∀ u ∈ pre, u.Readable) (depth : Nat)
    {post : List Token} (hpost : post.headD last = t) (hd : Fits limit depth) :
    FailsFor limit i (p.read limit last depth (pre ++ post)) := by
  induction h generalizing depth with
  | operand hn hm hl =>
    subst hpost
    exact .inl (read_blocked limit last depth hn hm hl)
  | minus m hm h ih =>
    rw [List.cons_append, read_minus limit last depth hm]
    by_cases hd' : Fits limit (depth + 1)
    · rw [withinLimit_of_fits hd', ok_bind]
      exact (ih (fun u hu => hpre u (List.mem_cons_of_mem m hu)) (depth + 1) hpost hd').bind _
    · exact .inr ((tooDeep_of_not_fits hd' m).bind _)
  | inner o ho h ih =>
    rw [List.cons_append, read_parens limit last depth ho]
    by_cases hd' : Fits limit (depth + 1)
    · rw [withinLimit_of_fits hd', ok_bind]
      exact (ih (fun u hu => hpre u (List.mem_cons_of_mem o hu)) (depth + 1) hpost hd').bind _
    · exact .inr ((tooDeep_of_not_fits hd' o).bind _)
  | closing o ho d hs ht =>
    obtain ⟨e, he⟩ := d.exists_tree fun u hu => hpre u (List.mem_cons_of_mem o hu)
    rw [← hpost] at hs
    rw [List.cons_append, read_parens limit last depth ho]
    by_cases hd' : Fits limit (depth + 1)
    · rw [withinLimit_of_fits hd', ok_bind]
      by_cases hf : Fits limit d.height ∧ Fits limit (depth + 1 + d.nesting)
      · rw [d.read_tree he (depth + 1) post hs.allows hf.1 hf.2, resume_ended hs, ok_bind]
        exact .inl (close_error hpost ht)
      · exact .inr ((d.tooDeep_tokens he (depth + 1) post hs.allows hd' hf).bind _)
    · exact .inr ((tooDeep_of_not_fits hd' o).bind _)
  | single h ih =>
    rw [read_chain]
    exact (ih hpre depth hpost hd).bind _
  | @link rank pre t i d m op hm h ih =>
    obtain ⟨e, he⟩ := d.exists_tree fun u hu => hpre u (List.mem_append_left _ hu)
    rw [List.append_assoc, List.cons_append]
    by_cases hf : Fits limit d.height ∧ Fits limit (depth + d.nesting)
    · rw [d.read_tree he depth (m :: (pre ++ post)) (ended_part hm) hf.1 hf.2,
        resume_link limit last depth hm]
      refine (ih (fun u hu => hpre u ?_) depth hpost hd).bind _
      exact List.mem_append_right _ (List.mem_cons_of_mem m hu)
    · exact .inr (d.tooDeep_tokens he depth (m :: (pre ++ post)) (ended_part hm) hd hf)

end Reckoner
