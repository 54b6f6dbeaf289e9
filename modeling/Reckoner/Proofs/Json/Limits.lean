import Reckoner.Proofs.Json.RoundTrip

/-!
Beyond the limits of a reader. A value that is nested too deep, or has a whole number of too many
digits, is refused for that, wherever in it the limit is passed.
-/

namespace Reckoner
open Text

namespace Json

def Problem.OfLimit (p : Problem) : Prop :=
  p = .tooDeep ∨ p = .tooLong

def Stops {α : Type} {cs : List Char} (x : Except Fault (Read α cs)) : Prop :=
  ∃ f, x = .error f ∧ f.problem.OfLimit

variable {limits inner : Limits} {cs more rest : List Char} {v : Json}

theorem Stops.startsContent_value (h : Stops (value limits cs)) : StartsContent ']' cs := by
  obtain ⟨f, hf, hlimit⟩ := h
  have hvalue : ∀ n, value limits cs ≠ .error ⟨.expectedValue, n⟩ := by
    intro n hn
    rw [hn] at hf
    cases hf
    exact absurd hlimit (by simp [Problem.OfLimit])
  exact startsContent_of_value hvalue

theorem Stops.bind {α β : Type} {ds : List Char} {x : Except Fault (Read α cs)}
    {f : Read α cs → Except Fault (Read β ds)} (h : Stops x) : Stops (x >>= f) := by
  obtain ⟨fault, rfl, hlimit⟩ := h
  exact ⟨fault, rfl, hlimit⟩

/-! Arrays. -/

theorem items_stops (h : Stops (value limits cs)) : Stops (items limits cs) := by
  rw [items]
  exact h.bind

theorem items_stops_behind (h : Reads (value limits cs) v (',' :: ' ' :: more))
    (hwhite : skipWhite more = more) (hmore : Stops (items limits more)) :
    Stops (items limits cs) := by
  obtain ⟨hv, h⟩ := h
  obtain ⟨hm, hmark⟩ := separator_comma ']' (by decide) hwhite
  rw [items, h]
  simp only [ok_bind, hmark]
  exact hmore.bind

theorem Stops.startsContent_items (h : Stops (items limits cs)) : StartsContent ']' cs := by
  obtain ⟨f, hf, hlimit⟩ := h
  cases hv : value limits cs with
  | ok r => exact Json.startsContent_value hv
  | error g =>
    rw [items, hv] at hf
    cases hf
    exact Stops.startsContent_value ⟨f, hv, hlimit⟩

theorem value_array_stops (hl : limits.inner? = some inner) (h : Stops (items inner cs)) :
    Stops (value limits ('[' :: cs)) := by
  have hstart := h.startsContent_items
  rw [← hstart.skipWhite_eq] at h
  rw [value]
  simp only [hl, hstart.closed?]
  exact h.bind

/-! Objects. -/

theorem members_stops {name : String} {text : List Char} (hname : Reads (memberName cs) name text)
    (h : Stops (value limits text)) : Stops (members limits cs) := by
  obtain ⟨_, hname⟩ := hname
  rw [members, hname]
  simp only [ok_bind]
  exact h.bind

theorem members_stops_behind {name : String} {text : List Char}
    (hname : Reads (memberName cs) name text)
    (h : Reads (value limits text) v (',' :: ' ' :: more)) (hwhite : skipWhite more = more)
    (hmore : Stops (members limits more)) : Stops (members limits cs) := by
  obtain ⟨hn, hname⟩ := hname
  obtain ⟨hv, h⟩ := h
  obtain ⟨hm, hmark⟩ := separator_comma '\x7d' (by decide) hwhite
  rw [members, hname]
  simp only [ok_bind, h, hmark]
  exact hmore.bind

theorem startsContent_memberChars {ms : List (String × Json)} (hne : ms ≠ []) (cs : List Char) :
    StartsContent '\x7d' (memberChars ms ++ cs) := by
  obtain ⟨⟨name, v⟩, ms, rfl⟩ := List.exists_cons_of_ne_nil hne
  cases ms <;> exact ⟨'"', _, rfl, rfl, by decide⟩

theorem value_object_stops (hl : limits.inner? = some inner) (hstart : StartsContent '\x7d' cs)
    (h : Stops (members inner cs)) : Stops (value limits ('\x7b' :: cs)) := by
  rw [← hstart.skipWhite_eq] at h
  rw [value]
  simp only [hl, hstart.closed?]
  exact h.bind

theorem value_tooDeep {c : Char} (hc : c = '[' ∨ c = '\x7b') (hl : limits.inner? = none)
    (cs : List Char) : Stops (value limits (c :: cs)) := by
  refine ⟨⟨.tooDeep, cs.length + 1⟩, ?_, .inl rfl⟩
  rw [value]
  rcases hc with rfl | rfl <;> simp [hl]

/-! Whole values. -/

/-- The reader stops within the value, whatever stands behind it. -/
def Stopped (limits : Limits) (v : Json) : Prop :=
  ∀ rest, EndsNumber rest → Stops (value limits (chars v ++ rest))

theorem itemChars_stops (h : Stopped limits v) (vs : List Json) (rest : List Char) :
    Stops (items limits (itemChars (v :: vs) ++ ']' :: rest)) := by
  cases vs with
  | nil => exact items_stops (h _ (endsNumber_mark (by decide) rest))
  | cons w ws =>
    rw [itemChars, List.append_assoc, List.cons_append]
    · exact items_stops (h _ (endsNumber_mark (by decide) _))
    · exact List.cons_ne_nil w ws

theorem items_text_stops {vs : List Json} (hs : ∃ v ∈ vs, Stopped limits v)
    (h : ∀ v ∈ vs, ReadBack limits v ∨ Stopped limits v) (rest : List Char) :
    Stops (items limits (itemChars vs ++ ']' :: rest)) := by
  induction vs with
  | nil => exact absurd hs (by simp)
  | cons v vs ih =>
    rw [List.forall_mem_cons] at h
    by_cases hv : Stopped limits v
    · exact itemChars_stops hv vs rest
    · have hread := h.1.resolve_right hv
      have hs : ∃ v ∈ vs, Stopped limits v := by simpa [hv] using hs
      have hmore := ih hs h.2
      cases vs with
      | nil => exact absurd hs (by simp)
      | cons w ws =>
        rw [itemChars, List.append_assoc, List.cons_append, List.cons_append]
        · exact items_stops_behind (hread _ (endsNumber_mark (by decide) _))
            hmore.startsContent_items.skipWhite_eq hmore
        · exact List.cons_ne_nil w ws

theorem memberChars_stops (h : Stopped limits v) (name : String) (ms : List (String × Json))
    (rest : List Char) :
    Stops (members limits (memberChars ((name, v) :: ms) ++ '\x7d' :: rest)) := by
  cases ms with
  | nil =>
    have hv := h _ (endsNumber_mark (c := '\x7d') (by decide) rest)
    rw [memberChars, List.append_assoc, List.cons_append, List.cons_append]
    exact members_stops (memberName_text name hv.startsContent_value.skipWhite_eq) hv
  | cons m ms =>
    have hv := h _ (endsNumber_mark (c := ',') (by decide)
      (' ' :: (memberChars (m :: ms) ++ '\x7d' :: rest)))
    rw [memberChars, List.append_assoc, List.cons_append, List.cons_append, List.append_assoc,
      List.cons_append, List.cons_append]
    · exact members_stops (memberName_text name hv.startsContent_value.skipWhite_eq) hv
    · exact List.cons_ne_nil m ms

theorem members_text_stops {ms : List (String × Json)} (hs : ∃ m ∈ ms, Stopped limits m.2)
    (h : ∀ m ∈ ms, ReadBack limits m.2 ∨ Stopped limits m.2) (rest : List Char) :
    Stops (members limits (memberChars ms ++ '\x7d' :: rest)) := by
  induction ms with
  | nil => exact absurd hs (by simp)
  | cons m ms ih =>
    obtain ⟨name, v⟩ := m
    rw [List.forall_mem_cons] at h
    by_cases hv : Stopped limits v
    · exact memberChars_stops hv name ms rest
    · have hread := h.1.resolve_right hv
      have hs : ∃ m ∈ ms, Stopped limits m.2 := by simpa [hv] using hs
      have hmore := ih hs h.2
      cases ms with
      | nil => exact absurd hs (by simp)
      | cons w ws =>
        have hv := hread _ (endsNumber_mark (c := ',') (by decide)
          (' ' :: (memberChars (w :: ws) ++ '\x7d' :: rest)))
        have hstart := startsContent_memberChars (List.cons_ne_nil w ws) ('\x7d' :: rest)
        rw [memberChars, List.append_assoc, List.cons_append, List.cons_append, List.append_assoc,
          List.cons_append, List.cons_append]
        · exact members_stops_behind (memberName_text name (startsContent_value hv.2).skipWhite_eq)
            hv hstart.skipWhite_eq hmore
        · exact List.cons_ne_nil w ws

theorem stopped_array {vs : List Json}
    (hs : ∀ inner, limits.inner? = some inner → ∃ v ∈ vs, Stopped inner v)
    (h : ∀ inner, ∀ v ∈ vs, ReadBack inner v ∨ Stopped inner v) : Stopped limits (.array vs) := by
  intro rest _
  have htext : chars (.array vs) ++ rest = '[' :: (itemChars vs ++ ']' :: rest) := by
    simp [chars]
  rw [htext]
  cases hl : limits.inner? with
  | none => exact value_tooDeep (.inl rfl) hl _
  | some inner => exact value_array_stops hl (items_text_stops (hs inner hl) (h inner) rest)

theorem stopped_object {ms : List (String × Json)}
    (hs : ∀ inner, limits.inner? = some inner → ∃ m ∈ ms, Stopped inner m.2)
    (h : ∀ inner, ∀ m ∈ ms, ReadBack inner m.2 ∨ Stopped inner m.2) :
    Stopped limits (.object ms) := by
  intro rest _
  have htext : chars (.object ms) ++ rest = '\x7b' :: (memberChars ms ++ '\x7d' :: rest) := by
    simp [chars]
  rw [htext]
  cases hl : limits.inner? with
  | none => exact value_tooDeep (.inr rfl) hl _
  | some inner =>
    obtain ⟨m, hm, hstop⟩ := hs inner hl
    exact value_object_stops hl (startsContent_memberChars (List.ne_nil_of_mem hm) _)
      (members_text_stops ⟨m, hm, hstop⟩ (h inner) rest)

theorem Distinct.stopped (h : Distinct v) (hw : ¬ Within limits v) : Stopped limits v := by
  -- As in reading back, the limits vary. A part within them is read and another one stops the reader.
  induction h generalizing limits with
  | null => exact absurd (.null _) hw
  | bool b => exact absurd (.bool _ b) hw
  | int n =>
    intro rest hrest
    have hl : limits.admits (digits n.natAbs).length = false :=
      Bool.eq_false_iff.mpr fun hl => hw (.int hl)
    obtain ⟨k, hk⟩ := value_tooLong (numberText_digits n.natAbs) hl hrest (decide (n < 0))
    rw [chars_int, List.append_assoc]
    exact ⟨_, hk, .inr rfl⟩
  | float x => exact absurd (.float _ x) hw
  | string s => exact absurd (.string _ s) hw
  | unpaired => exact absurd (.unpaired _) hw
  | @array vs h ih =>
    refine stopped_array (fun inner hl => ?_) fun inner v hv => ?_
    · by_contra hs
      exact hw (.array hl fun v hv => by_contra fun hv' => hs ⟨v, hv, ih v hv hv'⟩)
    · by_cases hv' : Within inner v
      · exact .inl ((h v hv).readBack hv')
      · exact .inr (ih v hv hv')
  | @object ms hn h ih =>
    refine stopped_object (fun inner hl => ?_) fun inner m hm => ?_
    · by_contra hs
      exact hw (.object hl fun m hm => by_contra fun hm' => hs ⟨m, hm, ih m hm hm'⟩)
    · by_cases hm' : Within inner m.2
      · exact .inl ((h m hm).readBack hm')
      · exact .inr (ih m hm hm')

theorem ofTextWithin_error (h : Distinct v) (hw : ¬ Within limits v) :
    ∃ f, ofTextWithin limits v.text = .error f ∧ f.problem.OfLimit := by
  have hstop := h.stopped hw [] (by simp [EndsNumber])
  rw [List.append_nil] at hstop
  rw [← hstop.startsContent_value.skipWhite_eq] at hstop
  obtain ⟨f, hf, hlimit⟩ := hstop
  refine ⟨f, ?_, hlimit⟩
  rw [ofTextWithin, text, String.toList_ofList, hf]
  rfl

end Json
end Reckoner
