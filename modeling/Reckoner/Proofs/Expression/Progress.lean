import Reckoner.Proofs.Expression.Machine
import Reckoner.Proofs.Expression.Reading

/-!
The machine stops on all tokens, with what the parser gives for them. A rule that is called on the
machine comes back with the reading of the rule, whatever the frames below it are.
-/

namespace Reckoner
namespace Machine
open Expression

structure At (body : List Token) (i : Nat) (us : List Token) : Prop where
  le : i ≤ body.length
  drop : body.drop i = us

namespace At

variable {body us : List Token} {i : Nat} {t : Token}

theorem getElem? (h : At body i us) (last : Token) :
    (body ++ [last])[i]? = some (us.headD last) := by
  have hhead : body[i]? = us.head? := by rw [← h.drop, List.head?_drop]
  cases us with
  | nil =>
    have hi : i = body.length := Nat.le_antisymm h.le (List.drop_eq_nil_iff.mp h.drop)
    rw [hi, List.getElem?_concat_length]
    rfl
  | cons t us =>
    obtain ⟨hi, -⟩ := List.getElem?_eq_some_iff.mp hhead
    rw [List.getElem?_append_left hi, hhead]
    rfl

theorem lt (h : At body i (t :: us)) : i < body.length := by
  have hhead : body[i]? = some t := by rw [← List.head?_drop, h.drop]; rfl
  exact (List.getElem?_eq_some_iff.mp hhead).1

theorem length (h : At body i us) : us.length = body.length - i := by
  rw [← h.drop, List.length_drop]

theorem next (h : At body i (t :: us)) : At body (i + 1) us :=
  ⟨h.lt, by rw [← List.tail_drop, h.drop, List.tail_cons]⟩

theorem advance_eq (h : At body i (t :: us)) (last : Token) : advance (body ++ [last]) i = i + 1 :=
  advance_of_lt (by simpa using h.lt)

end At

section Simulation

variable (limit : Option Int) (body : List Token) (last : Token)

def Halts (m : Machine) (r : Except Failure Expression) : Prop :=
  ∃ path, Run limit (body ++ [last]) m path r

/-- The machine stops with the failure, or comes to the frames with the reading and the cursor
behind it. -/
def Returns (m : Machine) (depth : Nat) (frames : List Frame) : Except Failure Reading → Prop
  | .error f => Halts limit body last m (.error f)
  | .ok r => ∃ j, m.cursor ≤ j ∧ At body j r.rest ∧
      ∀ res, Halts limit body last ⟨j, depth, .done r.tree r.height, frames⟩ res →
        Halts limit body last m res

def Simulated (p : Phrase) (us : List Token) : Prop :=
  ∀ i depth frames, At body i us →
    Returns limit body last ⟨i, depth, .read p, frames⟩ depth frames (p.read limit last depth us)

end Simulation

variable {limit : Option Int} {body us : List Token} {last t : Token} {m m' : Machine}
  {depth depth' i n : Nat} {frames frames' : List Frame} {x : Except Failure Reading}

theorem Halts.step {r : Except Failure Expression}
    (h : turn limit (body ++ [last]) m = some (.next m')) (hm : Halts limit body last m' r) :
    Halts limit body last m r := by
  obtain ⟨path, hrun⟩ := hm
  exact ⟨m :: path, .next h hrun⟩

theorem Halts.stop {r : Except Failure Expression}
    (h : turn limit (body ++ [last]) m = some (.stop r)) : Halts limit body last m r :=
  ⟨[m], .stop h⟩

namespace Returns

theorem step (h : turn limit (body ++ [last]) m = some (.next m'))
    (hm : Returns limit body last m' depth frames x) :
    Returns limit body last m depth frames x := by
  cases x with
  | error f => exact Halts.step h hm
  | ok r =>
    obtain ⟨j, hj, hat, hgo⟩ := hm
    exact ⟨j, Nat.le_trans (turn_le h) hj, hat, fun res hres => (hgo res hres).step h⟩

theorem within (h : turn limit (body ++ [last]) m = some (guarded limit n t m'))
    (hm : Returns limit body last m' depth frames x) :
    Returns limit body last m depth frames (withinLimit limit n t >>= fun _ => x) := by
  unfold guarded at h
  cases hlimit : withinLimit limit n t with
  | error f =>
    rw [hlimit] at h
    exact Halts.stop h
  | ok u =>
    rw [hlimit] at h
    exact hm.step h

theorem bind {k : Reading → Except Failure Reading} (h : Returns limit body last m depth frames x)
    (hk : ∀ j r, x = .ok r → m.cursor ≤ j → At body j r.rest →
      Returns limit body last ⟨j, depth, .done r.tree r.height, frames⟩ depth' frames' (k r)) :
    Returns limit body last m depth' frames' (x >>= k) := by
  cases x with
  | error f => exact h
  | ok r =>
    obtain ⟨j, hj, hat, hgo⟩ := h
    have hr := hk j r rfl hj hat
    rw [ok_bind]
    cases hkr : k r with
    | error f =>
      rw [hkr] at hr
      exact hgo _ hr
    | ok s =>
      rw [hkr] at hr
      obtain ⟨j', hj', hat', hgo'⟩ := hr
      exact ⟨j', Nat.le_trans hj hj', hat', fun res hres => hgo res (hgo' res hres)⟩

theorem done {e : Expression} (h : At body i us) :
    Returns limit body last ⟨i, depth, .done e n, frames⟩ depth frames (.ok ⟨e, n, us⟩) :=
  ⟨i, Nat.le_refl _, h, fun _ hres => hres⟩

end Returns

/-! The rules. -/

theorem simulated_minus (ht : t.kind = .minus) (ih : Simulated limit body last .factor us) :
    Simulated limit body last .factor (t :: us) := by
  intro i depth frames hi
  rw [Phrase.read_minus limit last depth ht]
  have hturn : turn limit (body ++ [last]) ⟨i, depth, .read .factor, frames⟩ =
      some (.next ⟨i + 1, depth, .enter t (.negated t) .factor, frames⟩) := by
    simp [turn, hi.getElem? last, factor, ht, hi.advance_eq last]
  refine .step hturn (.within rfl ((ih (i + 1) (depth + 1) _ hi.next).bind fun j r _ _ hj => ?_))
  exact .within rfl (.done hj)

theorem returns_close {r : Reading} (hlast : last.kind = .eof) (h : At body i r.rest) :
    Returns limit body last ⟨i, depth + 1, .done r.tree r.height, .enclosed :: frames⟩ depth frames
      (Phrase.close last r) := by
  obtain ⟨e, n, rest⟩ := r
  have hturn : turn limit (body ++ [last]) ⟨i, depth + 1, .done e n, .enclosed :: frames⟩ =
      some (close (body ++ [last]) ⟨i, depth + 1, .done e n, frames⟩ (rest.headD last)) := by
    simp [turn, resume, h.getElem? last]
  cases rest with
  | nil =>
    refine Halts.stop (hturn.trans ?_)
    simp [close, hlast]
  | cons t us =>
    simp only [Phrase.close]
    by_cases ht : t.kind = .rparen
    · rw [if_pos ht]
      refine .step (hturn.trans ?_) (.done h.next)
      simp [close, ht, h.advance_eq last]
    · rw [if_neg ht]
      refine Halts.stop (hturn.trans ?_)
      simp [close, ht]

theorem simulated_parens (hlast : last.kind = .eof) (ht : t.kind = .lparen)
    (ih : Simulated limit body last (.chain .sum) us) :
    Simulated limit body last .factor (t :: us) := by
  intro i depth frames hi
  rw [Phrase.read_parens limit last depth ht]
  have hturn : turn limit (body ++ [last]) ⟨i, depth, .read .factor, frames⟩ =
      some (.next ⟨i + 1, depth, .enter t .enclosed (.chain .sum), frames⟩) := by
    simp [turn, hi.getElem? last, factor, ht, hi.advance_eq last]
  refine .step hturn (.within rfl ((ih (i + 1) (depth + 1) _ hi.next).bind fun j r _ _ hj => ?_))
  exact returns_close hlast hj

theorem simulated_number (ht : t.kind = .number) : Simulated limit body last .factor (t :: us) := by
  intro i depth frames hi
  rw [Phrase.read_number limit last depth ht]
  cases hx : Binary64.ofText? t.lexeme with
  | none => exact Halts.stop (by simp [turn, hi.getElem? last, factor, ht, hx])
  | some x =>
    have hturn : turn limit (body ++ [last]) ⟨i, depth, .read .factor, frames⟩ =
        some (.next ⟨i + 1, depth, .done (.number x) 0, frames⟩) := by
      simp [turn, hi.getElem? last, factor, ht, hx, hi.advance_eq last]
    exact .step hturn (.done hi.next)

theorem simulated_blocked (hn : (us.headD last).kind ≠ .number) (hm : (us.headD last).kind ≠ .minus)
    (hl : (us.headD last).kind ≠ .lparen) : Simulated limit body last .factor us := by
  intro i depth frames hi
  rw [Phrase.read_blocked limit last depth hn hm hl]
  refine Halts.stop ?_
  rw [turn, hi.getElem? last, Option.map_some, factor]
  cases hk : (us.headD last).kind <;> simp_all

theorem simulated_factor (hlast : last.kind = .eof) (us : List Token)
    (ih : ∀ p vs, vs.length < us.length → Simulated limit body last p vs) :
    Simulated limit body last .factor us := by
  by_cases hn : (us.headD last).kind = .number
  · cases us with
    | nil => simp [hlast] at hn
    | cons t us => exact simulated_number hn
  by_cases hm : (us.headD last).kind = .minus
  · cases us with
    | nil => simp [hlast] at hm
    | cons t us => exact simulated_minus hm (ih .factor us (Nat.lt_succ_self _))
  by_cases hl : (us.headD last).kind = .lparen
  · cases us with
    | nil => simp [hlast] at hl
    | cons t us => exact simulated_parens hlast hl (ih (.chain .sum) us (Nat.lt_succ_self _))
  · exact simulated_blocked hn hm hl

theorem returns_links (hlast : last.kind = .eof) {rank : Rank} {us : List Token}
    (hpart : ∀ vs, vs.length ≤ us.length → Simulated limit body last rank.part vs) {e : Expression}
    (h : At body i us) :
    Returns limit body last ⟨i, depth, .links rank e n, frames⟩ depth frames
      ((Phrase.chain rank).resume limit last depth ⟨e, n, us⟩) := by
  induction hk : us.length using Nat.strongRecOn generalizing i e n us with
  | ind k ih =>
    let m : Machine := ⟨i, depth, .links rank e n, frames⟩
    have hturn : turn limit (body ++ [last]) m =
        some (link (body ++ [last]) m rank e n (us.headD last)) := by
      simp [m, turn, h.getElem? last]
    cases us with
    | nil =>
      rw [Phrase.resume_nil]
      refine .step (hturn.trans ?_) (.done h)
      simp [m, link, hlast]
    | cons t us =>
      cases ho : rank.operator? t.kind with
      | none =>
        rw [Phrase.resume_stop limit last depth ho]
        refine .step (hturn.trans ?_) (.done h)
        simp [m, link, ho]
      | some op =>
        rw [Phrase.resume_link limit last depth ho]
        have hlink : link (body ++ [last]) m rank e n t =
            .next ⟨i + 1, depth, .read rank.part, .right rank op e n t :: frames⟩ := by
          simp [m, link, ho, h.advance_eq last]
        refine .step (hturn.trans (congrArg some hlink)) ?_
        refine (hpart us (Nat.le_succ _) (i + 1) depth _ h.next).bind fun j r _ hij hj => ?_
        have hshorter : r.rest.length ≤ us.length := by
          rw [hj.length, h.next.length]
          exact Nat.sub_le_sub_left hij body.length
        refine .within rfl (ih r.rest.length ?_ (fun vs hvs => hpart vs ?_) hj rfl)
        · rw [← hk]
          exact Nat.lt_succ_of_le hshorter
        · exact Nat.le_trans hvs (Nat.le_succ_of_le hshorter)

theorem simulated_chain (hlast : last.kind = .eof) (rank : Rank) (us : List Token)
    (hpart : ∀ vs, vs.length ≤ us.length → Simulated limit body last rank.part vs) :
    Simulated limit body last (.chain rank) us := by
  intro i depth frames hi
  rw [Phrase.read_chain]
  refine .step rfl ((hpart us (Nat.le_refl _) i depth _ hi).bind fun j r _ hij hj => ?_)
  refine .step rfl (returns_links hlast (fun vs hvs => hpart vs (Nat.le_trans hvs ?_)) hj)
  rw [hj.length, hi.length]
  exact Nat.sub_le_sub_left hij body.length

theorem simulated (hlast : last.kind = .eof) (p : Phrase) (us : List Token) :
    Simulated limit body last p us :=
  Phrase.induct_tokens (simulated_factor hlast) (simulated_chain hlast) p us

/-! The whole input. -/

theorem halts_body (limit : Option Int) (body : List Token) (hlast : last.kind = .eof) :
    Halts limit body last ⟨0, 0, .read (.chain .sum), []⟩ (ofTokens limit (body ++ [last])) := by
  have hsum := @simulated limit body last hlast (.chain .sum) body 0 0 [] ⟨Nat.zero_le _, rfl⟩
  rw [ofTokens_append limit hlast]
  cases hread : (Phrase.chain .sum).read limit last 0 body with
  | error f =>
    rw [hread] at hsum
    exact hsum
  | ok r =>
    rw [hread] at hsum
    obtain ⟨j, -, hj, hgo⟩ := hsum
    refine hgo _ (Halts.stop ?_)
    rw [turn, hj.getElem? last]
    rfl

variable {ts : List Token} {path : List Machine} {r : Except Failure Expression}

theorem start_append (hlast : last.kind = .eof) :
    start (body ++ [last]) = .ok ⟨0, 0, .read (.chain .sum), []⟩ := by
  simp [start, hlast]

theorem start_eq_ok (h : start ts = .ok m) : m.cursor < ts.length ∧ Ended ts := by
  unfold start at h
  split at h
  · cases h
  next last hlast =>
  split at h
  · next heof =>
    cases h
    refine ⟨List.length_pos_of_mem (List.mem_of_getLast? hlast), fun t ht => ?_⟩
    rw [hlast] at ht
    cases ht
    exact heof
  · cases h

theorem exists_parses (limit : Option Int) (ts : List Token) :
    ∃ path, Parses limit ts path (ofTokens limit ts) := by
  rcases List.eq_nil_or_concat ts with rfl | ⟨body, last, rfl⟩
  · exact ⟨[], rfl, rfl⟩
  · rw [List.concat_eq_append]
    by_cases hlast : last.kind = .eof
    · obtain ⟨path, hrun⟩ := halts_body limit body hlast
      refine ⟨path, ?_⟩
      rwa [Parses, start_append hlast]
    · refine ⟨[], ?_⟩
      simp [Parses, start, ofTokens, hlast]

theorem Parses.unique {path' : List Machine} {r' : Except Failure Expression}
    (h : Parses limit ts path r) (h' : Parses limit ts path' r') : path = path' ∧ r = r' := by
  unfold Parses at h h'
  split at h
  · next f hf =>
    rw [hf] at h'
    obtain ⟨rfl, rfl⟩ := h
    obtain ⟨rfl, rfl⟩ := h'
    exact ⟨rfl, rfl⟩
  · next m hm =>
    rw [hm] at h'
    exact Run.unique h h'

theorem Parses.cursor_lt (h : Parses limit ts path r) : ∀ m ∈ path, m.cursor < ts.length := by
  unfold Parses at h
  split at h
  · obtain ⟨rfl, -⟩ := h
    exact fun m hm => nomatch hm
  · next m hm => exact Run.cursor_lt h (start_eq_ok hm).1

/-- The parser stops on any tokens, and never without a result. The cursor stays on the tokens and
does not go back. Each descent at a minus or a parenthesis and each round of a loop over operators
moves it behind a token of its own, which is not the last one, so there are fewer of them than
tokens. -/
theorem parses_progress (limit : Option Int) (ts : List Token) :
    (∃ path, Parses limit ts path (ofTokens limit ts)) ∧
      ∀ path r, Parses limit ts path r → r = ofTokens limit ts ∧
        (∀ m ∈ path, m.cursor < ts.length) ∧
        (path.Pairwise fun m m' => m.cursor ≤ m'.cursor) ∧
        (∀ m ∈ path, m.descends ts ∨ m.iterates ts → m.cursor < ts.length - 1 ∧
          ∃ m' ∈ path, turn limit ts m = some (.next m') ∧ m'.cursor = m.cursor + 1) ∧
        ((path.filter fun m => m.descends ts || m.iterates ts).Pairwise
          fun m m' => m.cursor < m'.cursor) ∧
        (path.filter fun m => m.descends ts || m.iterates ts).length ≤ ts.length - 1 := by
  have hexists := exists_parses limit ts
  refine ⟨hexists, fun path r h => ?_⟩
  obtain ⟨path', h'⟩ := hexists
  refine ⟨(h.unique h').2, h.cursor_lt, ?_⟩
  unfold Parses at h
  split at h
  · obtain ⟨rfl, -⟩ := h
    simp
  · next m hm =>
    have hend := (start_eq_ok hm).2
    refine ⟨h.sorted, fun x hx hx' => ?_, h.takes_sorted hend,
      h.length_takes_le hend⟩
    obtain ⟨hlt, m', hturn, hnext⟩ := @turn_takes limit ts x hend (Bool.or_eq_true_iff.mpr hx')
    exact ⟨hlt, m', h.mem_next hx hturn, hturn, hnext⟩

theorem twoMinuses_progress :
    let ts : List Token := [⟨.minus, "-", 0⟩, ⟨.minus, "-", 1⟩, ⟨.eof, "", 2⟩]
    ∃ path, Parses none ts path (ofTokens none ts) ∧
      (path.filter fun m => m.descends ts || m.iterates ts).length = ts.length - 1 := by
  intro ts
  have hrun : Run none ts ⟨0, 0, .read (.chain .sum), []⟩ _ _ :=
    .next rfl (.next rfl (.next rfl (.next rfl (.next rfl (.next rfl (.stop rfl))))))
  have hparses : Parses none ts _ _ := hrun
  have hresult := ((parses_progress none ts).2 _ _ hparses).1
  rw [hresult] at hparses
  exact ⟨_, hparses, rfl⟩

end Machine
end Reckoner
