import Reckoner.Proofs.Text.Numeral
import Reckoner.Timestamp.Text

/-!
The text of a point in time is read as that point, but for an offset that is a mere part of a second:
that one is read as zero. So there are points that no text stands for, and no others are lost.
-/

namespace Reckoner
open Text

namespace Timestamp

variable {width n micro k : Nat} {cs : List Char} {t : Timestamp}

/-! Numbers of a fixed width. -/

theorem number?_padded (hw : 0 < width) (hn : n < 10 ^ width) (cs : List Char) :
    number? width ((padded width n).toList ++ cs) = some (n, cs) := by
  have hlen := length_padded hw hn
  have hall : (padded width n).toList.all isDigit = true :=
    List.all_eq_true.mpr fun c hc => isDigit_of_mem_padded hc
  rw [number?, List.take_left' hlen, List.drop_left' hlen, if_pos ⟨hlen, hall⟩, ofDigits_padded]

theorem padded_append_head (width n : Nat) (cs : List Char) :
    ∃ c cs', (padded width n).toList ++ cs = c :: cs' ∧ isDigit c = true := by
  have hne : (padded width n).toList ≠ [] := padded_ne_nil
  obtain ⟨c, ds, hc⟩ := List.exists_cons_of_ne_nil hne
  have hmem : c ∈ (padded width n).toList := by
    rw [hc]
    exact List.mem_cons_self
  exact ⟨c, ds ++ cs, by rw [hc]; rfl, isDigit_of_mem_padded hmem⟩

/-! Dates. -/

def dateText (year month day : Nat) : String :=
  padded 4 year ++ "-" ++ padded 2 month ++ "-" ++ padded 2 day

theorem date?_dateText {year month day : Nat} (hy : year < 10000) (hm : month < 100)
    (hd : day < 100) (cs : List Char) :
    date? ((dateText year month day).toList ++ cs) = some ((year, month, day), cs) := by
  have htext : (dateText year month day).toList ++ cs = (padded 4 year).toList ++
      '-' :: ((padded 2 month).toList ++ '-' :: ((padded 2 day).toList ++ cs)) := by
    simp [dateText, String.toList_append]
  obtain ⟨c, cs', hc, hdigit⟩ := padded_append_head 2 month
    ('-' :: ((padded 2 day).toList ++ cs))
  have hW : c ≠ 'W' := by
    rintro rfl
    cases hdigit
  have hmonth : monthDay? true (c :: cs') = some ((month, day), cs) := by
    have hday : number? 2 ((padded 2 day).toList ++ cs) = some (day, cs) :=
      number?_padded (by decide) hd cs
    rw [← hc, monthDay?, number?_padded (by decide) hm]
    simp [skip, hday]
  rw [htext, date?, number?_padded (by decide) hy]
  simp only [Option.bind_eq_bind, Option.bind_some, List.head?_cons, skip, hc]
  simp [hW, hmonth]

/-! Clocks. -/

theorem fraction?_padded (h : micro < 1000000) :
    fraction? (padded 6 micro).toList = some (micro, true) := by
  have hlen : (padded 6 micro).toList.length = 6 := length_padded (by decide) h
  have htake : (padded 6 micro).toList.take 6 = (padded 6 micro).toList :=
    List.take_of_length_le (Nat.le_of_eq hlen)
  have hdrop : (padded 6 micro).toList.drop 6 = [] := List.drop_of_length_le (Nat.le_of_eq hlen)
  have hall : (padded 6 micro).toList.all isDigit = true :=
    List.all_eq_true.mpr fun c hc => isDigit_of_mem_padded hc
  rw [fraction?, htake, hdrop, if_pos hall, hlen]
  simp [isOver]

theorem clockFrom?_last (hn : n < 100) (hm : micro < 1000000) (colons? : Option Bool) :
    clockFrom? colons? (k + 1) ((padded 2 n).toList ++ (microText micro).toList) =
      some (⟨[n], micro⟩, true) := by
  rw [clockFrom?, number?_padded (by decide) hn, microText]
  by_cases h : micro = 0
  · simp [h]
  · obtain ⟨c, cs, hc, _⟩ := padded_append_head 6 micro []
    rw [List.append_nil] at hc
    have hfraction := fraction?_padded hm
    rw [hc] at hfraction
    simp [h, hc, clockFrom?, hfraction]

theorem clockFrom?_colon (hn : n < 100) {colons? : Option Bool} (hcolons : colons? ≠ some false)
    (hcs : cs ≠ []) {clock : Clock} (h : clockFrom? (some true) k cs = some (clock, true)) :
    clockFrom? colons? (k + 1) ((padded 2 n).toList ++ ':' :: cs) =
      some (⟨n :: clock.numbers, clock.micro⟩, true) := by
  have hgetD : colons?.getD true = true := by
    cases colons? with
    | none => rfl
    | some b =>
      cases b with
      | false => exact absurd rfl hcolons
      | true => rfl
  obtain ⟨c, cs, rfl⟩ := List.exists_cons_of_ne_nil hcs
  rw [clockFrom?, number?_padded (by decide) hn]
  simp [hgetD, h]

theorem clock?_clockText {hour minute second : Nat} (hh : hour < 100) (hm : minute < 100)
    (hs : second < 100) (hmicro : micro < 1000000) :
    clock? ((clockText hour minute second ++ microText micro).toList) =
      some (⟨[hour, minute, second], micro⟩, true) := by
  have htext : (clockText hour minute second ++ microText micro).toList = (padded 2 hour).toList ++
      ':' :: ((padded 2 minute).toList ++ ':' :: ((padded 2 second).toList ++
        (microText micro).toList)) := by
    simp [clockText, String.toList_append]
  have hlast := clockFrom?_last (k := 0) hs hmicro (some true)
  have hne (n : Nat) (cs : List Char) : (padded 2 n).toList ++ cs ≠ [] :=
    List.append_ne_nil_of_left_ne_nil padded_ne_nil cs
  have hrest : clockFrom? (some true) 2 _ = _ :=
    clockFrom?_colon hm (by decide) (hne second _) hlast
  rw [htext, clock?]
  exact clockFrom?_colon hh (by decide) (hne minute _) hrest

/-! Offsets. -/

def spanText (micros : Nat) : String :=
  minuteText (micros / 1000000) ++
    if micros % 60000000 = 0 then ""
    else ":" ++ padded 2 (micros / 1000000 % 60) ++ microText (micros % 1000000)

theorem clock?_spanText {micros : Nat} (h : micros < microsPerDay) :
    ∃ c, clock? (spanText micros).toList = some (c, true) ∧
      c.seconds = micros / 1000000 ∧ c.micro = micros % 1000000 := by
  have hhour : micros / 1000000 / 3600 < 100 := by
    rw [microsPerDay] at h
    omega
  have hminute : micros / 1000000 / 60 % 60 < 100 := by omega
  by_cases hm : micros % 60000000 = 0
  · have htext : (spanText micros).toList = (padded 2 (micros / 1000000 / 3600)).toList ++
        ':' :: ((padded 2 (micros / 1000000 / 60 % 60)).toList ++ (microText 0).toList) := by
      simp [spanText, minuteText, hm, microText, String.toList_append]
    have hlast : clockFrom? (some true) 2 ((padded 2 (micros / 1000000 / 60 % 60)).toList ++
        (microText 0).toList) = some (⟨[micros / 1000000 / 60 % 60], 0⟩, true) :=
      clockFrom?_last hminute (by decide) (some true)
    refine ⟨⟨[micros / 1000000 / 3600, micros / 1000000 / 60 % 60], 0⟩, ?_, ?_, ?_⟩
    · rw [htext, clock?]
      exact clockFrom?_colon hhour (by decide) (List.append_ne_nil_of_left_ne_nil padded_ne_nil _)
        hlast
    · change (micros / 1000000 / 3600 * 60 + micros / 1000000 / 60 % 60) * 60 + 0 = _
      omega
    · change 0 = _
      omega
  · have htext : spanText micros = clockText (micros / 1000000 / 3600)
        (micros / 1000000 / 60 % 60) (micros / 1000000 % 60) ++ microText (micros % 1000000) := by
      simp [spanText, minuteText, hm, clockText, String.append_assoc]
    refine ⟨⟨[micros / 1000000 / 3600, micros / 1000000 / 60 % 60, micros / 1000000 % 60],
      micros % 1000000⟩, ?_, ?_, ?_⟩
    · rw [htext]
      exact clock?_clockText hhour hminute (by omega) (by omega)
    · change (micros / 1000000 / 3600 * 60 + micros / 1000000 / 60 % 60) * 60 +
        micros / 1000000 % 60 = _
      omega
    · rfl

/-- The offset that the text of an offset is read as. Without a full second it is zero. -/
def readOffset (o : Int) : Int :=
  if o.natAbs < 1000000 then 0 else o

theorem natAbs_readOffset_le (o : Int) : (readOffset o).natAbs ≤ o.natAbs := by
  unfold readOffset
  split
  · exact Nat.zero_le _
  · exact Nat.le_refl _

theorem offset?_spanText {micros : Nat} (h : micros < microsPerDay) :
    offset? (spanText micros).toList = some (readOffset micros) := by
  obtain ⟨c, hc, hseconds, hmicro⟩ := clock?_spanText h
  rw [offset?, hc]
  simp only [Option.bind_eq_bind, Option.bind_some, hseconds, hmicro]
  by_cases hs : micros < 1000000
  · simp [readOffset, hs]
  · have hpos : micros / 1000000 ≠ 0 := by omega
    have hsum : micros / 1000000 * 1000000 + micros % 1000000 = micros := by omega
    simp [readOffset, hs, hpos, hsum]

/-! The whole text. -/

theorem not_isZoneMark_of_isDigit {c : Char} (h : isDigit c = true) : (!isZoneMark c) = true := by
  rw [Bool.not_eq_true']
  refine Bool.eq_false_iff.mpr fun hz => ?_
  simp only [isZoneMark, Bool.or_eq_true, beq_iff_eq] at hz
  rcases hz with (rfl | rfl) | rfl <;> cases h

theorem not_isZoneMark_of_mem_clock {hour minute second : Nat} :
    ∀ c ∈ (clockText hour minute second ++ microText micro).toList, (!isZoneMark c) = true := by
  intro c hc
  simp only [clockText, String.toList_append, List.mem_append] at hc
  rcases hc with ((((hc | hc) | hc) | hc) | hc) | hc
  · exact not_isZoneMark_of_isDigit (isDigit_of_mem_padded hc)
  · rw [List.mem_singleton.mp hc]
    rfl
  · exact not_isZoneMark_of_isDigit (isDigit_of_mem_padded hc)
  · rw [List.mem_singleton.mp hc]
    rfl
  · exact not_isZoneMark_of_isDigit (isDigit_of_mem_padded hc)
  · rw [microText] at hc
    split at hc
    · cases hc
    · rw [String.toList_append, List.mem_append] at hc
      cases hc with
      | inl hc =>
        rw [List.mem_singleton.mp hc]
        rfl
      | inr hc => exact not_isZoneMark_of_isDigit (isDigit_of_mem_padded hc)

theorem time?_local {clock : List Char} (hmarks : ∀ c ∈ clock, (!isZoneMark c) = true) {c : Clock}
    (hc : clock? clock = some (c, true)) : time? clock = some (c, none) := by
  rw [time?, List.takeWhile_eq_self_iff.mpr hmarks, List.dropWhile_eq_nil_iff.mpr hmarks, hc]
  rfl

theorem time?_signed {clock zone : List Char} (hmarks : ∀ c ∈ clock, (!isZoneMark c) = true)
    {c : Clock} (hc : clock? clock = some (c, true)) {o : Int} (ho : offset? zone = some o)
    (negative : Bool) :
    time? (clock ++ (if negative then '-' else '+') :: zone) =
      some (c, some (if negative then -o else o)) := by
  have hmark : (!isZoneMark (if negative then '-' else '+')) = false := by
    cases negative <;> rfl
  rw [time?, List.takeWhile_append_of_pos hmarks, List.dropWhile_append_of_pos hmarks,
    List.takeWhile_cons, List.dropWhile_cons, hmark]
  simp only [Bool.false_eq_true, if_false, List.append_nil, hc, Option.bind_eq_bind,
    Option.bind_some, ho]
  cases negative <;> rfl

theorem Fields.InRange.widths {f : Fields} (h : f.InRange) :
    f.year < 10000 ∧ f.month < 100 ∧ f.day < 100 := by
  obtain ⟨⟨⟨_, hy⟩, ⟨_, hm⟩, _, hd⟩, _⟩ := h
  have hdays : daysInMonth f.year f.month ≤ 31 := by
    unfold daysInMonth
    split
    · split <;> omega
    · split <;> omega
  omega

theorem text_toList (t : Timestamp) :
    t.text.toList = (dateText t.year t.month t.day).toList ++
      'T' :: ((clockText t.hour t.minute t.second ++ microText t.micro).toList ++
        match t.offset with
        | none => []
        | some o => (if decide (o < 0) then '-' else '+') :: (spanText o.natAbs).toList) := by
  rw [text]
  cases t.offset with
  | none => simp [localText, dateText, String.toList_append]
  | some o =>
    by_cases hneg : o < 0
    · simp [localText, dateText, offsetText, signText, spanText, String.toList_append, hneg]
    · simp [localText, dateText, offsetText, signText, spanText, String.toList_append, hneg]

/-- The point in time that the text of a point is read as. -/
def readBack (t : Timestamp) : Timestamp where
  toFields := { t.toFields with offset := t.offset.map readOffset }
  inRange := by
    obtain ⟨hdate, hhour, hminute, hsecond, hmicro, hoffset⟩ := t.inRange
    refine ⟨hdate, hhour, hminute, hsecond, hmicro, ?_⟩
    cases ho : t.offset with
    | none => exact show 0 < microsPerDay by decide
    | some o =>
      rw [ho] at hoffset
      exact Nat.lt_of_le_of_lt (natAbs_readOffset_le o) hoffset

theorem ofText_text (t : Timestamp) : ofText t.text = .ok t.readBack := by
  obtain ⟨hy, hm, hd⟩ := t.inRange.widths
  obtain ⟨_, hhour, hminute, hsecond, hmicro, hoffset⟩ := t.inRange
  have hclock := clock?_clockText (Nat.lt_trans hhour (by decide))
    (Nat.lt_trans hminute (by decide)) (Nat.lt_trans hsecond (by decide)) hmicro
  have hfields : fields? t.text.toList = some t.readBack.toFields := by
    rw [text_toList, fields?, date?_dateText hy hm hd]
    simp only [Option.bind_eq_bind, Option.bind_some, readBack]
    cases ho : t.offset with
    | none =>
      simp only [List.append_nil]
      rw [time?_local not_isZoneMark_of_mem_clock hclock]
      rfl
    | some o =>
      rw [ho, Option.getD_some] at hoffset
      have hspan := offset?_spanText hoffset
      have hsign : (if decide (o < 0) = true then -readOffset o.natAbs else readOffset o.natAbs) =
          readOffset o := by
        simp only [decide_eq_true_eq, readOffset, Int.natAbs_natCast]
        split <;> split <;> omega
      dsimp only
      rw [time?_signed not_isZoneMark_of_mem_clock hclock hspan, Option.bind_some, hsign]
      rfl
  rw [ofText, hfields]
  exact dif_pos t.readBack.inRange

def Expressible (t : Timestamp) : Prop :=
  ∃ s, ofText s = .ok t

theorem readOffset_of_offset? {o : Int} (h : offset? cs = some o) : readOffset o = o := by
  simp only [offset?, Option.bind_eq_bind, Option.bind_eq_some_iff] at h
  obtain ⟨⟨c, ended⟩, _, h⟩ := h
  split at h
  · cases h
  split at h
  · cases h
    rfl
  · cases h
    exact if_neg (by omega)

theorem readOffset_neg (o : Int) : readOffset (-o) = -readOffset o := by
  unfold readOffset
  rw [Int.natAbs_neg]
  split <;> rfl

theorem readOffset_of_time? {clock : Clock} {offset : Option Int}
    (h : time? cs = some (clock, offset)) : offset.map readOffset = offset := by
  simp only [time?, Option.bind_eq_bind, Option.bind_eq_some_iff] at h
  obtain ⟨⟨c, ended⟩, _, h⟩ := h
  split at h
  · split at h <;> cases h
    rfl
  split at h
  · split at h <;> cases h
    rfl
  rw [Option.bind_eq_some_iff] at h
  obtain ⟨o, ho, h⟩ := h
  cases h
  rw [Option.map_some]
  split
  · rw [readOffset_neg, readOffset_of_offset? ho]
  · rw [readOffset_of_offset? ho]

theorem readOffset_of_fields? {f : Fields} (h : fields? cs = some f) :
    f.offset.map readOffset = f.offset := by
  simp only [fields?, Option.bind_eq_bind, Option.bind_eq_some_iff] at h
  obtain ⟨⟨⟨year, month, day⟩, rest⟩, _, h⟩ := h
  split at h
  · cases h
    rfl
  · rw [Option.bind_eq_some_iff] at h
    obtain ⟨⟨clock, offset⟩, htime, h⟩ := h
    cases h
    exact readOffset_of_time? htime

theorem expressible_iff : t.Expressible ↔ t.readBack = t := by
  refine ⟨?_, fun h => ⟨t.text, by rw [ofText_text, h]⟩⟩
  rintro ⟨s, hs⟩
  rw [ofText] at hs
  split at hs
  · next f hf =>
    rw [ofFields] at hs
    split at hs
    · cases hs
      simp only [readBack, readOffset_of_fields? hf]
    · cases hs
  · cases hs

end Timestamp
end Reckoner
