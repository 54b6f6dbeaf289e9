import Mathlib.Data.List.Perm.Subperm
import Reckoner.Proofs.Expression.Grammar

/-!
The parser as a machine. A cursor walks over the whole list of tokens, the end of input included,
and a stack holds what the open rules still have to do. The cursor never turns back and never leaves
the list, and each descent into a factor and each round of a loop takes a token of its own.
-/

namespace Reckoner

/-- What a rule does with the phrase that it called for. -/
inductive Frame where
  | first (rank : Rank)
  | right (rank : Rank) (op : Operator) (left : Expression) (height : Nat) (t : Token)
  | negated (t : Token)
  | enclosed

/-- A rule is called, a level is entered behind its token, a loop looks for another link, or a rule
is done. -/
inductive Control where
  | read (p : Phrase)
  | enter (t : Token) (frame : Frame) (p : Phrase)
  | links (rank : Rank) (left : Expression) (height : Nat)
  | done (tree : Expression) (height : Nat)

structure Machine where
  cursor : Nat
  depth : Nat
  control : Control
  frames : List Frame

inductive Turn where
  | next (m : Machine)
  | stop (r : Except Failure Expression)

namespace Machine
open Expression

section Turns

variable (limit : Option Int) (ts : List Token)

/-- The cursor behind its token. On the last token it stays where it is. -/
def advance (i : Nat) : Nat :=
  if i < ts.length - 1 then i + 1 else i

def guarded (n : Nat) (t : Token) (m : Machine) : Turn :=
  match withinLimit limit n t with
  | .error f => .stop (.error f)
  | .ok () => .next m

def factor (m : Machine) (t : Token) : Turn :=
  match t.kind with
  | .minus =>
    .next { m with cursor := advance ts m.cursor, control := .enter t (.negated t) .factor }
  | .lparen =>
    .next { m with cursor := advance ts m.cursor, control := .enter t .enclosed (.chain .sum) }
  | .number =>
    match Binary64.ofText? t.lexeme with
    | some x => .next { m with cursor := advance ts m.cursor, control := .done (.number x) 0 }
    | none => .stop (.error (.unreadable ⟨t.lexeme⟩))
  | _ => .stop (.error (.invalid (.expectedOperand t)))

def link (m : Machine) (rank : Rank) (left : Expression) (height : Nat) (t : Token) : Turn :=
  match rank.operator? t.kind with
  | some op =>
    .next { m with
      cursor := advance ts m.cursor
      control := .read rank.part
      frames := .right rank op left height t :: m.frames }
  | none => .next { m with control := .done left height }

def close (m : Machine) (t : Token) : Turn :=
  if t.kind = .rparen then .next { m with cursor := advance ts m.cursor, depth := m.depth - 1 }
  else .stop (.error (.invalid (.expectedClosing t)))

def finish (tree : Expression) (t : Token) : Turn :=
  .stop (if t.kind = .eof then .ok tree else .error (.invalid (.trailing t)))

def resume (m : Machine) (tree : Expression) (height : Nat) : Frame → Option Turn
  | .first rank => some (.next { m with control := .links rank tree height })
  | .right rank op left h t =>
    some (guarded limit (max h height + 1) t
      { m with control := .links rank (.operation op left tree) (max h height + 1) })
  | .negated t =>
    some (guarded limit (height + 1) t
      { m with depth := m.depth - 1, control := .done (.negation tree) (height + 1) })
  | .enclosed => ts[m.cursor]?.map (close ts m)

/-- One turn of the machine. There is none if the cursor is not on a token. -/
def turn (m : Machine) : Option Turn :=
  match m.control with
  | .read (.chain rank) =>
    some (.next { m with control := .read rank.part, frames := .first rank :: m.frames })
  | .read .factor => ts[m.cursor]?.map (factor ts m)
  | .enter t frame p =>
    some (guarded limit (m.depth + 1) t
      { m with depth := m.depth + 1, control := .read p, frames := frame :: m.frames })
  | .links rank left height => ts[m.cursor]?.map (link ts m rank left height)
  | .done tree height =>
    match m.frames with
    | [] => ts[m.cursor]?.map (finish tree)
    | frame :: frames => resume limit ts { m with frames } tree height frame

def start : Except Failure Machine :=
  match ts.getLast? with
  | none => .error (.invalid (.unterminated 0))
  | some last =>
    if last.kind = .eof then .ok ⟨0, 0, .read (.chain .sum), []⟩
    else .error (.invalid (.unterminated (last.position + last.lexeme.length)))

/-- The turns from a machine on until it stops, and what it stops with. -/
inductive Run : Machine → List Machine → Except Failure Expression → Prop where
  | stop {m : Machine} {r : Except Failure Expression} (h : turn limit ts m = some (.stop r)) :
    Run m [m] r
  | next {m m' : Machine} {path : List Machine} {r : Except Failure Expression}
    (h : turn limit ts m = some (.next m')) (rest : Run m' path r) : Run m (m :: path) r

/-- A run over all tokens, without a turn if they are refused at once. -/
def Parses (path : List Machine) (r : Except Failure Expression) : Prop :=
  match start ts with
  | .error f => path = [] ∧ r = .error f
  | .ok m => Run limit ts m path r

/-- A minus or an opening parenthesis leads from a factor into the next level. -/
def descends (m : Machine) : Bool :=
  match m.control, ts[m.cursor]? with
  | .read .factor, some t => t.kind = .minus || t.kind = .lparen
  | _, _ => false

/-- An operator leads into another round of the loop over the links of a chain. -/
def iterates (m : Machine) : Bool :=
  match m.control, ts[m.cursor]? with
  | .links rank _ _, some t => (rank.operator? t.kind).isSome
  | _, _ => false

end Turns

variable {limit : Option Int} {ts : List Token} {m m' : Machine} {r : Except Failure Expression}

/-! One turn. -/

theorem le_advance (ts : List Token) (i : Nat) : i ≤ advance ts i := by
  unfold advance
  split <;> omega

theorem advance_lt {i : Nat} (h : i < ts.length) : advance ts i < ts.length := by
  unfold advance
  split <;> omega

theorem guarded_eq_next {n : Nat} {t : Token} (h : guarded limit n t m = .next m') : m' = m := by
  unfold guarded at h
  split at h
  · cases h
  · cases h
    rfl

theorem factor_next {t : Token} (h : factor ts m t = .next m') :
    m'.cursor = advance ts m.cursor := by
  unfold factor at h
  split at h
  · cases h
    rfl
  · cases h
    rfl
  · split at h
    · cases h
      rfl
    · cases h
  · cases h

theorem link_next {rank : Rank} {left : Expression} {height : Nat} {t : Token}
    (h : link ts m rank left height t = .next m') :
    m'.cursor = m.cursor ∨ m'.cursor = advance ts m.cursor := by
  unfold link at h
  split at h
  · cases h
    exact .inr rfl
  · cases h
    exact .inl rfl

theorem close_next {t : Token} (h : close ts m t = .next m') : m'.cursor = advance ts m.cursor := by
  unfold close at h
  split at h
  · cases h
    rfl
  · cases h

theorem resume_next {tree : Expression} {height : Nat} {frame : Frame}
    (h : resume limit ts m tree height frame = some (.next m')) :
    m'.cursor = m.cursor ∨ m'.cursor = advance ts m.cursor := by
  cases frame with
  | first rank =>
    cases h
    exact .inl rfl
  | right rank op left height t =>
    rw [guarded_eq_next (Option.some_inj.mp h)]
    exact .inl rfl
  | negated t =>
    rw [guarded_eq_next (Option.some_inj.mp h)]
    exact .inl rfl
  | enclosed =>
    obtain ⟨t, -, h⟩ := Option.map_eq_some_iff.mp h
    exact .inr (close_next h)

theorem turn_next (h : turn limit ts m = some (.next m')) :
    m'.cursor = m.cursor ∨ m'.cursor = advance ts m.cursor := by
  unfold turn at h
  split at h
  · cases h
    exact .inl rfl
  · obtain ⟨t, -, h⟩ := Option.map_eq_some_iff.mp h
    exact .inr (factor_next h)
  · rw [guarded_eq_next (Option.some_inj.mp h)]
    exact .inl rfl
  · obtain ⟨t, -, h⟩ := Option.map_eq_some_iff.mp h
    exact link_next h
  · split at h
    · obtain ⟨t, -, h⟩ := Option.map_eq_some_iff.mp h
      cases h
    · next frame frames hframes => exact resume_next (m := { m with frames := frames }) h

theorem turn_le (h : turn limit ts m = some (.next m')) : m.cursor ≤ m'.cursor := by
  rcases turn_next h with h | h
  · exact Nat.le_of_eq h.symm
  · rw [h]
    exact le_advance ts m.cursor

theorem turn_lt (h : turn limit ts m = some (.next m')) (hm : m.cursor < ts.length) :
    m'.cursor < ts.length := by
  rcases turn_next h with h | h
  · rwa [h]
  · rw [h]
    exact advance_lt hm

/-! Tokens taken. -/

/-- Nothing but an end of input is at the end. -/
def Ended (ts : List Token) : Prop :=
  ∀ t ∈ ts.getLast?, t.kind = .eof

def takes (ts : List Token) (m : Machine) : Bool :=
  m.descends ts || m.iterates ts

theorem lt_pred_of_kind {i : Nat} {t : Token} (hend : Ended ts) (ht : ts[i]? = some t)
    (hk : t.kind ≠ .eof) : i < ts.length - 1 := by
  obtain ⟨hi, -⟩ := List.getElem?_eq_some_iff.mp ht
  by_contra hlast
  have : i = ts.length - 1 := by omega
  subst this
  rw [← List.getLast?_eq_getElem?] at ht
  exact hk (hend t ht)

theorem advance_of_lt {i : Nat} (h : i < ts.length - 1) : advance ts i = i + 1 :=
  if_pos h

theorem turn_descends (hend : Ended ts) (h : m.descends ts = true) :
    m.cursor < ts.length - 1 ∧
      ∃ m', turn limit ts m = some (.next m') ∧ m'.cursor = m.cursor + 1 := by
  unfold descends at h
  split at h
  · next t hcontrol ht =>
    simp only [Bool.or_eq_true, decide_eq_true_eq] at h
    have hlt : m.cursor < ts.length - 1 := by
      refine lt_pred_of_kind hend ht fun heof => ?_
      rw [heof] at h
      rcases h with h | h <;> cases h
    refine ⟨hlt, ?_⟩
    rw [turn, hcontrol, ht, ← advance_of_lt hlt]
    rcases h with h | h
    · exact ⟨_, by rw [Option.map_some, factor, h], rfl⟩
    · exact ⟨_, by rw [Option.map_some, factor, h], rfl⟩
  · cases h

theorem turn_iterates (hend : Ended ts) (h : m.iterates ts = true) :
    m.cursor < ts.length - 1 ∧
      ∃ m', turn limit ts m = some (.next m') ∧ m'.cursor = m.cursor + 1 := by
  unfold iterates at h
  split at h
  · next rank left height t hcontrol ht =>
    obtain ⟨op, hop⟩ := Option.isSome_iff_exists.mp h
    have hlt : m.cursor < ts.length - 1 := by
      refine lt_pred_of_kind hend ht fun heof => ?_
      rw [heof, Rank.operator?_eof] at hop
      cases hop
    refine ⟨hlt, ?_⟩
    rw [turn, hcontrol, ht, ← advance_of_lt hlt]
    exact ⟨{ m with
      cursor := advance ts m.cursor
      control := .read rank.part
      frames := .right rank op left height t :: m.frames }, by simp [link, hop], rfl⟩
  · cases h

theorem turn_takes (hend : Ended ts) (h : m.takes ts = true) :
    m.cursor < ts.length - 1 ∧
      ∃ m', turn limit ts m = some (.next m') ∧ m'.cursor = m.cursor + 1 := by
  rcases Bool.or_eq_true_iff.mp h with h | h
  · exact turn_descends hend h
  · exact turn_iterates hend h

/-! Whole runs. -/

namespace Run

variable {path : List Machine}

theorem unique {path' : List Machine} {r' : Except Failure Expression} (h : Run limit ts m path r)
    (h' : Run limit ts m path' r') : path = path' ∧ r = r' := by
  induction h generalizing path' with
  | stop h =>
    cases h' with
    | stop h' =>
      rw [h] at h'
      cases h'
      exact ⟨rfl, rfl⟩
    | next h' rest' =>
      rw [h] at h'
      cases h'
  | next h rest ih =>
    cases h' with
    | stop h' =>
      rw [h] at h'
      cases h'
    | next h' rest' =>
      rw [h] at h'
      cases h'
      obtain ⟨rfl, rfl⟩ := ih rest'
      exact ⟨rfl, rfl⟩

theorem mem_self (h : Run limit ts m path r) : m ∈ path := by
  cases h with
  | stop h => exact List.mem_cons_self
  | next h rest => exact List.mem_cons_self

theorem mem_next {x : Machine} (h : Run limit ts m path r) (hx : x ∈ path)
    (hturn : turn limit ts x = some (.next m')) : m' ∈ path := by
  induction h with
  | stop h =>
    cases List.mem_singleton.mp hx
    rw [h] at hturn
    cases hturn
  | next h rest ih =>
    rcases List.mem_cons.mp hx with rfl | hx
    · rw [h] at hturn
      cases hturn
      exact List.mem_cons_of_mem _ rest.mem_self
    · exact List.mem_cons_of_mem _ (ih hx)

theorem cursor_lt (h : Run limit ts m path r) (hm : m.cursor < ts.length) :
    ∀ x ∈ path, x.cursor < ts.length := by
  induction h with
  | stop h => exact List.forall_mem_singleton.mpr hm
  | next h rest ih => exact List.forall_mem_cons.mpr ⟨hm, ih (turn_lt h hm)⟩

theorem le_cursor (h : Run limit ts m path r) : ∀ x ∈ path, m.cursor ≤ x.cursor := by
  induction h with
  | stop h => exact List.forall_mem_singleton.mpr (Nat.le_refl _)
  | next h rest ih =>
    exact List.forall_mem_cons.mpr ⟨Nat.le_refl _, fun x hx => Nat.le_trans (turn_le h) (ih x hx)⟩

theorem sorted (h : Run limit ts m path r) : path.Pairwise fun x y => x.cursor ≤ y.cursor := by
  induction h with
  | stop h => exact List.pairwise_singleton _ _
  | next h rest ih =>
    exact List.pairwise_cons.mpr ⟨fun x hx => Nat.le_trans (turn_le h) (rest.le_cursor x hx), ih⟩

theorem takes_sorted (h : Run limit ts m path r) (hend : Ended ts) :
    (path.filter (takes ts)).Pairwise fun x y => x.cursor < y.cursor := by
  induction h with
  | stop h => exact List.Pairwise.filter _ (List.pairwise_singleton _ _)
  | @next m m' path r h rest ih =>
    by_cases htakes : m.takes ts = true
    · rw [List.filter_cons_of_pos htakes, List.pairwise_cons]
      refine ⟨fun x hx => ?_, ih⟩
      -- The next turn stands behind the token, and no later turn comes back to it.
      obtain ⟨-, m'', hturn, hcursor⟩ := turn_takes hend htakes
      rw [h] at hturn
      cases hturn
      have := rest.le_cursor x (List.mem_of_mem_filter hx)
      omega
    · rw [List.filter_cons_of_neg htakes]
      exact ih

theorem length_takes_le (h : Run limit ts m path r) (hend : Ended ts) :
    (path.filter (takes ts)).length ≤ ts.length - 1 := by
  let cursors := (path.filter (takes ts)).map cursor
  have hnodup : cursors.Nodup :=
    List.pairwise_map.mpr ((h.takes_sorted hend).imp Nat.ne_of_lt)
  have hsub : cursors ⊆ List.range (ts.length - 1) := by
    intro i hi
    obtain ⟨x, hx, rfl⟩ := List.mem_map.mp hi
    exact List.mem_range.mpr (@turn_takes limit ts x hend (List.mem_filter.mp hx).2).1
  have hle := (List.subperm_of_subset hnodup hsub).length_le
  rwa [List.length_map, List.length_range] at hle

end Run
end Machine
end Reckoner
