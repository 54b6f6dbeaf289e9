import Reckoner.Proofs.Expression.Moved
import Reckoner.Proofs.Expression.Rendering

/-!
Sources in parentheses. A group stands for the tree of its source, whatever the group stands in. What
is wrong with the source is found at the same place within the group, unless a parenthesis that closes
nothing in the source closes the group.
-/

namespace Reckoner
open Text Expression

/-- A text of blanks only. -/
def Spacing (s : String) : Prop :=
  ∀ c ∈ s.toList, isBlank c = true

instance (s : String) : Decidable (Spacing s) :=
  List.decidableBAll (isBlank · = true) s.toList

def grouped (before source after : String) : String :=
  "(" ++ before ++ source ++ after ++ ")"

/-- The token of the source at the given place is a parenthesis that closes none of those before it. -/
def ClosesNothing (source : String) (position : Int) : Prop :=
  ∃ pre t post, Token.scan source = .ok (pre ++ t :: post) ∧ t.position = position ∧
    t.kind = .rparen ∧
      pre.countP (·.kind = .lparen) = pre.countP (·.kind = .rparen)

variable {before source after : String}

theorem toList_grouped (before source after : String) : (grouped before source after).toList =
    '(' :: (before.toList ++ (source.toList ++ (after.toList ++ [')']))) := by
  simp [grouped]

theorem length_grouped (before source after : String) : (grouped before source after).length =
    before.length + source.length + after.length + 2 := by
  rw [← String.length_toList, toList_grouped]
  simp only [List.length_cons, List.length_append, List.length_nil, String.length_toList]
  omega

namespace Derivation

theorem balanced {p : Phrase} (d : Derivation p) :
    d.tokens.countP (·.kind = .lparen) = d.tokens.countP (·.kind = .rparen) := by
  induction d with
  | number t ht => simp [tokens, ht]
  | minus t ht inner ih => simp [tokens, ht, ih]
  | parens t ht inner u hu ih => simp [tokens, ht, hu, ih]
  | single inner ih => exact ih
  | @link rank left t op ht right ihl ihr =>
    have hl : t.kind ≠ .lparen := by
      intro h
      cases rank <;> simp [h, Rank.operator?] at ht
    have hr : t.kind ≠ .rparen := by
      intro h
      cases rank <;> simp [h, Rank.operator?] at ht
    simp [tokens, hl, hr, ihl, ihr]

end Derivation

theorem Blocked.opened {pre : List Token} {t o : Token} {i : Invalid} (h : Blocked pre t i)
    (ho : o.kind = .lparen)
    (hclose : ¬ (t.kind = .rparen ∧
      pre.countP (·.kind = .lparen) = pre.countP (·.kind = .rparen))) :
    ∃ j, Blocked (o :: pre) t j := by
  cases h with
  | inside h => exact ⟨_, .inside (.single (.single (.inner o ho h)))⟩
  | behind d hd ht =>
    have hr : t.kind ≠ .rparen := fun hr => hclose ⟨hr, d.balanced⟩
    exact ⟨_, .inside (.single (.single (.closing o ho d hd hr)))⟩

theorem Spacing.endsNumber {blanks : String} (h : Spacing blanks) {rest : List Char}
    (hrest : Token.EndsNumber rest) : Token.EndsNumber (blanks.toList ++ rest) := by
  refine Token.EndsNumber.append ?_ hrest
  intro c hc
  exact Token.isNumeric_of_isBlank (h c (List.mem_of_mem_head? hc))

namespace Token

theorem scanFrom_spacing {blanks : String} (h : Spacing blanks) (position : Nat)
    (rest : List Char) :
    scanFrom position (blanks.toList ++ rest) = scanFrom (position + blanks.length) rest := by
  rw [← String.length_toList]
  rw [Spacing] at h
  generalize blanks.toList = cs at h
  induction cs generalizing position with
  | nil => rfl
  | cons c cs ih =>
    rw [List.forall_mem_cons] at h
    rw [List.cons_append, scanFrom_blank h.1, ih _ h.2, List.length_cons, Nat.add_right_comm,
      Nat.add_assoc]

def groupTokens (before source after : String) (position : Nat) (ts : List Token) : List Token :=
  ⟨.lparen, "(", position⟩ :: (ts.map (moved (position + 1 + before.length)) ++
    [⟨.rparen, ")", (position + 1 + before.length + source.length + after.length : Nat)⟩])

theorem scanFrom_grouped (source : String) (hbefore : Spacing before) (hafter : Spacing after)
    (position : Nat) (rest : List Char) :
    scanFrom position ((grouped before source after).toList ++ rest) =
      match scan source with
      | .error i => .error (i.moved (position + 1 + before.length))
      | .ok ts =>
        (groupTokens before source after position ts.dropLast ++ ·) <$>
          scanFrom (position + (grouped before source after).length) rest := by
  have hend : EndsNumber (after.toList ++ ')' :: rest) :=
    hafter.endsNumber (endsNumber_cons (by decide))
  have hlen : position + 1 + before.length + source.length + after.length + 1 =
      position + (grouped before source after).length := by
    rw [length_grouped]
    omega
  have htext : (grouped before source after).toList ++ rest =
      '(' :: (before.toList ++ (source.toList ++ (after.toList ++ ')' :: rest))) := by
    simp [toList_grouped]
  have hmoved := scanFrom_moved (position + 1 + before.length) 0 source.toList
  rw [Nat.zero_add] at hmoved
  rw [htext, scanFrom_symbol rfl, scanFrom_spacing hbefore, scanFrom_append _ _ hend, hmoved,
    scanFrom_spacing hafter, scanFrom_symbol rfl, String.length_toList, hlen]
  change _ = match scanFrom 0 source.toList with | .error i => _ | .ok ts => _
  cases scanFrom 0 source.toList with
  | error i => rfl
  | ok ts =>
    simp only [Except.map, Except.mapError, ok_bind, Functor.map_map]
    congr 1
    funext us
    simp [groupTokens]

end Token

theorem Derivation.ofText_scanned {e : Expression} (d : Sentence) (htree : d.tree = .ok e)
    (hscan : ∀ rest, Token.scanFrom 0 (source.toList ++ rest) =
      (d.tokens ++ ·) <$> Token.scanFrom source.length rest) :
    ofText none source = .ok e := by
  have h := hscan []
  rw [List.append_nil, Token.scanFrom_nil] at h
  exact ofText_iff.mpr ⟨d, h, htree⟩

section Reads

variable (hbefore : Spacing before) (hafter : Spacing after)

include hbefore hafter

theorem exists_group {e : Expression} (h : ofText none source = .ok e) :
    ∃ g : Nat → Derivation .factor, ∀ position, (g position).tree = .ok e ∧ ∀ rest,
      Token.scanFrom position ((grouped before source after).toList ++ rest) =
        ((g position).tokens ++ ·) <$>
          Token.scanFrom (position + (grouped before source after).length) rest := by
  obtain ⟨d, hscan, htree⟩ := ofText_iff.mp h
  let g (position : Nat) : Derivation .factor :=
    .parens ⟨.lparen, "(", position⟩ rfl (d.moved (position + 1 + before.length))
      ⟨.rparen, ")", (position + 1 + before.length + source.length + after.length : Nat)⟩ rfl
  refine ⟨g, fun position => ⟨(d.tree_moved _).trans htree, fun rest => ?_⟩⟩
  rw [Token.scanFrom_grouped source hbefore hafter, hscan]
  simp [g, Token.groupTokens, Derivation.tokens, Derivation.tokens_moved]

theorem ofText_grouped {e : Expression} (h : ofText none source = .ok e) :
    ofText none (grouped before source after) = .ok e := by
  obtain ⟨g, hg⟩ := exists_group hbefore hafter h
  obtain ⟨htree, hscan⟩ := hg 0
  rw [Nat.zero_add] at hscan
  exact Derivation.ofText_scanned (.single (.single (g 0))) htree hscan

theorem ofText_negated {e : Expression} (h : ofText none source = .ok e) {gap : String}
    (hgap : Spacing gap) :
    ofText none ("-" ++ gap ++ grouped before source after) = .ok (.negation e) := by
  obtain ⟨g, hg⟩ := exists_group hbefore hafter h
  obtain ⟨htree, hscan⟩ := hg (1 + gap.length)
  let d : Sentence := .single (.single (.minus ⟨.minus, "-", 0⟩ rfl (g (1 + gap.length))))
  have hd : d.tree = .ok (.negation e) := by
    change ((g (1 + gap.length)).tree >>= _) = _
    rw [htree]
    rfl
  refine d.ofText_scanned hd fun rest => ?_
  have htext : ("-" ++ gap ++ grouped before source after).toList ++ rest =
      '-' :: (gap.toList ++ ((grouped before source after).toList ++ rest)) := by
    simp
  have hlen : 1 + gap.length + (grouped before source after).length =
      ("-" ++ gap ++ grouped before source after).length := by
    rw [String.length_append, String.length_append]
    rfl
  rw [htext, Token.scanFrom_symbol rfl, Token.scanFrom_spacing hgap, Nat.zero_add, hscan, hlen,
    Functor.map_map]
  rfl

theorem ofText_operation {e e' : Expression} (h : ofText none source = .ok e)
    {left right before' source' after' : String} (hleft : Spacing left) (hright : Spacing right)
    (hbefore' : Spacing before') (hafter' : Spacing after') (h' : ofText none source' = .ok e')
    (op : Operator) :
    ofText none (grouped before source after ++ left ++ op.symbol ++ right ++
      grouped before' source' after') = .ok (.operation op e e') := by
  obtain ⟨g, hg⟩ := exists_group hbefore hafter h
  obtain ⟨g', hg'⟩ := exists_group hbefore' hafter' h'
  obtain ⟨c, hc, hk⟩ := op.symbol_char
  let middle : Nat := (grouped before source after).length + left.length
  obtain ⟨htree, hscan⟩ := hg 0
  obtain ⟨htree', hscan'⟩ := hg' (middle + 1 + right.length)
  let d : Sentence :=
    (g 0).joined ⟨op.kind, op.symbol, middle⟩ op rfl (g' (middle + 1 + right.length))
  have hd : d.tree = .ok (.operation op e e') := by
    rw [Derivation.joined_tree, htree, htree']
    rfl
  refine d.ofText_scanned hd fun rest => ?_
  have htext : (grouped before source after ++ left ++ op.symbol ++ right ++
      grouped before' source' after').toList ++ rest = (grouped before source after).toList ++
        (left.toList ++ c :: (right.toList ++ ((grouped before' source' after').toList ++ rest))) := by
    simp [hc]
  have hlen : middle + 1 + right.length + (grouped before' source' after').length =
      (grouped before source after ++ left ++ op.symbol ++ right ++
        grouped before' source' after').length := by
    simp [hc, middle]
  rw [htext, hscan, Nat.zero_add, Token.scanFrom_spacing hleft, Token.scanFrom_symbol hk,
    Token.scanFrom_spacing hright, hscan', hlen, Derivation.joined_tokens]
  simp only [Functor.map_map]
  congr 1
  funext ts
  simp [middle, hc]

theorem Blocked.ofText_grouped {pre post : List Token} {t last : Token} {i : Invalid}
    (hb : Blocked pre t i) (hscan : Token.scan source = .ok (pre ++ t :: post ++ [last]))
    (hread : ∀ u ∈ pre, u.Readable) (hclose : ¬ ClosesNothing source t.position) :
    ∃ j, ofText none (grouped before source after) = .error (.invalid j) ∧
      j.position = t.position + 1 + before.length := by
  let k := 0 + 1 + before.length
  let o : Token := ⟨.lparen, "(", 0⟩
  let behind : List Token := t.moved k :: (post.map (Token.moved k) ++
    [⟨.rparen, ")", (k + source.length + after.length : Nat)⟩])
  let stop : Token := ⟨.eof, "", (0 + (grouped before source after).length : Nat)⟩
  obtain ⟨j, hj⟩ : ∃ j, Blocked (o :: pre.map (Token.moved k)) (behind.headD stop) j := by
    refine (hb.moved k).opened rfl ?_
    rw [List.countP_map, List.countP_map]
    intro h
    exact hclose ⟨pre, t, post ++ [last], by simpa using hscan, rfl, h⟩
  have hread' : ∀ u ∈ o :: pre.map (Token.moved k), u.Readable := by
    rw [List.forall_mem_cons, List.forall_mem_map]
    exact ⟨by rintro ⟨⟩, fun u hu => (hread u hu).moved k⟩
  have hgroup : Token.scan (grouped before source after) =
      .ok (o :: pre.map (Token.moved k) ++ behind ++ [stop]) := by
    have h := Token.scanFrom_grouped source hbefore hafter 0 []
    rw [hscan, List.append_nil, Token.scanFrom_nil] at h
    rw [Token.scan, h]
    simp only [List.dropLast_concat]
    simp [Token.groupTokens, o, behind, stop, k]
  refine ⟨j, ?_, ?_⟩
  · rw [ofText, hgroup]
    exact (hj.ofTokens rfl hread').none
  · have hposition : j.position = t.position + (0 + 1 + before.length : Nat) := hj.position_eq
    omega

theorem error_grouped {i : Invalid} (h : ofText none source = .error (.invalid i))
    (hi : i.position < source.length) (hclose : ¬ ClosesNothing source i.position) :
    ∃ j, ofText none (grouped before source after) = .error (.invalid j) ∧
      j.position = i.position + 1 + before.length := by
  unfold ofText at h
  split at h
  next j hj =>
    cases h
    have hgroup := Token.scanFrom_grouped source hbefore hafter 0 []
    rw [hj, List.append_nil] at hgroup
    refine ⟨i.moved (0 + 1 + before.length), by rw [ofText, Token.scan, hgroup], ?_⟩
    rw [Invalid.position_moved]
    omega
  next ts hts =>
    obtain ⟨body, rfl, hbody⟩ := Token.scan_ok hts
    have hread : ∀ t ∈ body, t.Readable := fun t ht => Token.readable_of_numeral (hbody t ht).2
    have hlast : (Token.mk .eof "" source.length).kind = .eof := rfl
    rcases ofTokens_cases hlast (fun t ht => (hbody t ht).1) hread with
      ⟨_, _, _, _, ho⟩ | ⟨pre, post, j, rfl, hb, ho⟩
    · rw [h] at ho
      cases ho
    · rw [h] at ho
      cases ho
      rw [hb.position_eq] at hi hclose ⊢
      cases post with
      | nil => exact absurd hi (Int.lt_irrefl _)
      | cons t post =>
        exact hb.ofText_grouped hbefore hafter hts (fun u hu => hread u (List.mem_append_left _ hu))
          hclose

end Reads

/-- A group stands for the tree of its source, a group behind a minus for the negation, and two groups
around an operator for the operation, whatever blanks there are between these pieces. A fault within a
source stays where it is in the group, unless it is a parenthesis that closes nothing. -/
theorem grouping_compositional {before after : String} (hbefore : Spacing before)
    (hafter : Spacing after) (a : String) :
    (∀ A, ofText none a = .ok A →
      ofText none (grouped before a after) = .ok A ∧
      (∀ gap, Spacing gap →
        ofText none ("-" ++ gap ++ grouped before a after) = .ok (.negation A)) ∧
      ∀ (op : Operator) (b before' after' left right : String) (B : Expression),
        Spacing before' → Spacing after' → Spacing left → Spacing right → ofText none b = .ok B →
          ofText none (grouped before a after ++ left ++ op.symbol ++ right ++
            grouped before' b after') = .ok (.operation op A B)) ∧
    ∀ i, ofText none a = .error (.invalid i) → i.position < a.length →
      ¬ ClosesNothing a i.position →
        ∃ j, ofText none (grouped before a after) = .error (.invalid j) ∧
          j.position = i.position + 1 + before.length := by
  refine ⟨fun A ha => ⟨ofText_grouped hbefore hafter ha, ?_, ?_⟩, ?_⟩
  · intro gap hgap
    exact ofText_negated hbefore hafter ha hgap
  · intro op b before' after' left right B hbefore' hafter' hleft hright hb
    exact ofText_operation hbefore hafter ha hleft hright hbefore' hafter' hb op
  · intro i hi hlt hclose
    exact error_grouped hbefore hafter hi hlt hclose

theorem ofText_negatedGroup :
    ofText none "-(1 + 2) * 3" = .ok (.operation .mul
      (.negation (.operation .add (.number (.ofInt 1)) (.number (.ofInt 2))))
      (.number (.ofInt 3))) := by
  have hscan : Token.scan "-(1 + 2) * 3" =
      .ok (Derivation.negatedGroup.tokens ++ [⟨.eof, "", 12⟩]) :=
    ok_of_toOption (by decide +kernel)
  exact ofText_iff.mpr ⟨_, hscan, Derivation.negatedGroup_tree⟩

theorem negatedGroup_grouped :
    let e : Expression := .operation .mul
      (.negation (.operation .add (.number (.ofInt 1)) (.number (.ofInt 2)))) (.number (.ofInt 3))
    ofText none "-( -(1 + 2) * 3)" = .ok (.negation e) ∧
      ofText none "( -(1 + 2) * 3) /(-(1 + 2) * 3 )" = .ok (.operation .div e e) ∧
      ∃ j, ofText none "( 1 2)" = .error (.invalid j) ∧ j.position = 4 := by
  intro e
  have hblank : Spacing " " := by decide
  have hempty : Spacing "" := by decide
  obtain ⟨-, hminus, hoperation⟩ :=
    (grouping_compositional hblank hempty "-(1 + 2) * 3").1 _ ofText_negatedGroup
  refine ⟨hminus "" hempty, ?_, ?_⟩
  · exact hoperation .div "-(1 + 2) * 3" "" " " " " "" e hempty hblank hblank hempty
      ofText_negatedGroup
  · let two : Token := ⟨.number, "2", 2⟩
    let one : Sentence := .single (.single (.number ⟨.number, "1", 0⟩ rfl))
    have hscan : Token.scan "1 2" = .ok (one.tokens ++ [two] ++ [⟨.eof, "", 3⟩]) :=
      ok_of_toOption (by decide +kernel)
    have hb : Blocked one.tokens two (.trailing two) := .behind one ⟨rfl, rfl⟩ (by decide)
    have herror : ofText none "1 2" = .error (.invalid (.trailing two)) := by
      have hfail : FailsFor none _ (ofTokens none (one.tokens ++ [two] ++ [⟨.eof, "", 3⟩])) :=
        hb.ofTokens rfl (by decide +kernel)
      rw [ofText, hscan]
      exact hfail.none
    have hclose : ¬ ClosesNothing "1 2" 2 := by
      rintro ⟨pre, t, post, h, -, ht, -⟩
      rw [hscan] at h
      have hmem : t ∈ one.tokens ++ [two] ++ [⟨.eof, "", 3⟩] := by
        rw [Except.ok.inj h]
        exact List.mem_append_right pre List.mem_cons_self
      have hall : ∀ u ∈ one.tokens ++ [two] ++ [⟨.eof, "", 3⟩], u.kind ≠ .rparen := by decide
      exact hall t hmem ht
    exact (grouping_compositional hblank hempty "1 2").2 _ herror (by decide) hclose

end Reckoner
