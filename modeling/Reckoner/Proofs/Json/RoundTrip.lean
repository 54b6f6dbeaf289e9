import Reckoner.Proofs.Json.Scalar

/-!
The text of a value is read as that value, however deep it is.
-/

namespace Reckoner
open Text

namespace Json

/-- No object has two members of one name, at any depth. -/
inductive Distinct : Json → Prop where
  | null : Distinct .null
  | bool (b : Bool) : Distinct (.bool b)
  | int (n : Int) : Distinct (.int n)
  | float (x : Binary64) : Distinct (.float x)
  | string (s : String) : Distinct (.string s)
  | unpaired : Distinct .unpaired
  | array {items : List Json} (h : ∀ v ∈ items, Distinct v) : Distinct (.array items)
  | object {members : List (String × Json)} (hn : (members.map Prod.fst).Nodup)
      (h : ∀ m ∈ members, Distinct m.2) : Distinct (.object members)

/-- The value is nested no deeper than the limits allow, and its whole numbers have no more
digits. -/
inductive Within : Limits → Json → Prop where
  | null (limits : Limits) : Within limits .null
  | bool (limits : Limits) (b : Bool) : Within limits (.bool b)
  | int {limits : Limits} {n : Int} (h : limits.admits (digits n.natAbs).length = true) :
      Within limits (.int n)
  | float (limits : Limits) (x : Binary64) : Within limits (.float x)
  | string (limits : Limits) (s : String) : Within limits (.string s)
  | unpaired (limits : Limits) : Within limits .unpaired
  | array {limits inner : Limits} {items : List Json} (hl : limits.inner? = some inner)
      (h : ∀ v ∈ items, Within inner v) : Within limits (.array items)
  | object {limits inner : Limits} {members : List (String × Json)}
      (hl : limits.inner? = some inner) (h : ∀ m ∈ members, Within inner m.2) :
      Within limits (.object members)

theorem Distinct.unlimited {v : Json} (h : v.Distinct) : v.Within .unlimited := by
  induction h with
  | null => exact .null _
  | bool b => exact .bool _ b
  | int n => exact .int rfl
  | float x => exact .float _ x
  | string s => exact .string _ s
  | unpaired => exact .unpaired _
  | array h ih => exact .array rfl ih
  | object hn h ih => exact .object rfl ih

variable {limits inner : Limits} {cs more rest : List Char} {v : Json}

/-! Members under different names stay as they come. -/

theorem insert_new {name : String} {ms : List (String × Json)} (h : name ∉ ms.map Prod.fst) :
    insert name v ms = ms ++ [(name, v)] := by
  induction ms with
  | nil => rfl
  | cons m ms ih =>
    simp only [List.map_cons, List.mem_cons, not_or] at h
    have hm : (m.1 == name) = false := beq_false_of_ne (Ne.symm h.1)
    rw [insert, hm, ih h.2]
    rfl

theorem foldl_insert_new {ms : List (String × Json)} (pairs : List (String × Json))
    (h : ((ms ++ pairs).map Prod.fst).Nodup) :
    pairs.foldl (fun members p => insert p.1 p.2 members) ms = ms ++ pairs := by
  induction pairs generalizing ms with
  | nil => exact (List.append_nil ms).symm
  | cons p ps ih =>
    have hp : p.1 ∉ ms.map Prod.fst := by
      rw [List.map_append, List.map_cons, List.nodup_append] at h
      exact fun hm => h.2.2 p.1 hm p.1 List.mem_cons_self rfl
    rw [List.foldl_cons, insert_new hp, ih (by simpa using h), List.append_assoc]
    rfl

theorem ofPairs_nodup {pairs : List (String × Json)} (h : (pairs.map Prod.fst).Nodup) :
    ofPairs pairs = pairs :=
  foldl_insert_new pairs h

/-! What stands around a value. -/

theorem skipWhite_cons {c : Char} (hc : isWhite c = false) (cs : List Char) :
    skipWhite (c :: cs) = c :: cs := by
  simp [skipWhite, hc]

theorem skipWhite_blank (cs : List Char) : skipWhite (' ' :: cs) = skipWhite cs := rfl

theorem closed?_cons {c : Char} (hw : isWhite c = false) (closing : Char) (cs : List Char) :
    closed? closing (c :: cs) =
      if c == closing then some ⟨(), cs, Nat.lt_succ_self _⟩ else none := by
  unfold closed?
  split
  · next h =>
    rw [skipWhite_cons hw] at h
    cases h
  · next h =>
    rw [skipWhite_cons hw] at h
    cases h
    rfl

theorem separator_cons {c : Char} (hw : isWhite c = false) (closing : Char) (cs : List Char) :
    separator closing (c :: cs) =
      if c == closing then .ok ⟨false, cs, Nat.lt_succ_self _⟩
      else if c == ',' then .ok ⟨true, skipWhite cs, Nat.lt_succ_of_le (length_skipWhite_le cs)⟩
      else .error ⟨.expectedComma, cs.length + 1⟩ := by
  unfold separator
  split
  · next h =>
    rw [skipWhite_cons hw] at h
    cases h
  · next h =>
    rw [skipWhite_cons hw] at h
    cases h
    rfl

theorem value_blank {c : Char} (hc : c ∈ [' ', '\t', '\n', '\r', ']']) :
    value limits (c :: cs) = .error ⟨.expectedValue, cs.length + 1⟩ := by
  have hword : word? (c :: cs) = none ∧ isDigit c = false ∧ c ∉ ['"', '[', '\x7b', '-', '0'] := by
    simp only [List.mem_cons, List.not_mem_nil, or_false] at hc
    rcases hc with rfl | rfl | rfl | rfl | rfl <;> simp [word?, words, isDigit]
  obtain ⟨hword, hdigit, hc⟩ := hword
  simp only [List.mem_cons, List.not_mem_nil, or_false, not_or] at hc
  have hwhole : wholePart (c :: cs) = [] := by
    rw [wholePart, List.takeWhile_cons, hdigit]
    · rfl
    · exact fun _ h => hc.2.2.2.2 (List.cons.inj h).1
  have hsign : minusSign (c :: cs) = [] := by
    rw [minusSign]
    exact fun _ h => hc.2.2.2.1 (List.cons.inj h).1
  have hnumber : number limits (c :: cs) = .error .expectedValue := by
    simp [number, hsign, numeralParts, hwhole]
  rw [value]
  simp [hc, scalar, wordOrNumber, hword, hnumber]

def StartsContent (closing : Char) (cs : List Char) : Prop :=
  ∃ c cs', cs = c :: cs' ∧ isWhite c = false ∧ c ≠ closing

theorem StartsContent.skipWhite_eq {closing : Char} (h : StartsContent closing cs) :
    skipWhite cs = cs := by
  obtain ⟨c, cs, rfl, hc, _⟩ := h
  exact skipWhite_cons hc cs

theorem StartsContent.closed? {closing : Char} (h : StartsContent closing cs) :
    closed? closing cs = none := by
  obtain ⟨c, cs, rfl, hw, hc⟩ := h
  rw [closed?_cons hw, if_neg (by simpa using hc)]

theorem startsContent_of_value (h : ∀ n, value limits cs ≠ .error ⟨.expectedValue, n⟩) :
    StartsContent ']' cs := by
  cases cs with
  | nil => exact absurd (by rw [value]) (h 0)
  | cons c cs =>
    have hc : c ∉ [' ', '\t', '\n', '\r', ']'] := fun hc => h _ (value_blank hc)
    simp only [List.mem_cons, List.not_mem_nil, or_false, not_or] at hc
    exact ⟨c, cs, rfl, by simp [isWhite, hc], hc.2.2.2.2⟩

theorem startsContent_value {r : Read Json cs} (h : value limits cs = .ok r) :
    StartsContent ']' cs := by
  have hvalue : ∀ n, value limits cs ≠ .error ⟨.expectedValue, n⟩ := by
    intro n hn
    rw [h] at hn
    cases hn
  exact startsContent_of_value hvalue

theorem startsContent_items {vs : List Json} (h : Reads (items limits cs) vs rest) :
    StartsContent ']' cs := by
  obtain ⟨_, h⟩ := h
  rw [items] at h
  obtain ⟨_, hv, _⟩ := bind_eq_ok h
  exact startsContent_value hv

theorem startsContent_members {ms : List (String × Json)} (h : Reads (members limits cs) ms rest) :
    StartsContent '\x7d' cs := by
  obtain ⟨_, h⟩ := h
  rw [members] at h
  obtain ⟨_, hname, _⟩ := bind_eq_ok h
  cases cs with
  | nil => cases hname
  | cons c cs =>
    rw [memberName] at hname
    split at hname
    · next hc =>
      rw [eq_of_beq hc]
      exact ⟨'"', cs, rfl, rfl, by decide⟩
    · cases hname

theorem closed?_self (closing : Char) (hw : isWhite closing = false) (rest : List Char) :
    ∃ h, closed? closing (closing :: rest) = some ⟨(), rest, h⟩ :=
  ⟨_, by rw [closed?_cons hw, if_pos (beq_self_eq_true closing)]⟩

theorem separator_closing (closing : Char) (hw : isWhite closing = false) (rest : List Char) :
    Reads (separator closing (closing :: rest)) false rest :=
  ⟨_, by rw [separator_cons hw, if_pos (beq_self_eq_true closing)]⟩

theorem separator_comma (closing : Char) (hc : ',' ≠ closing) (hrest : skipWhite rest = rest) :
    Reads (separator closing (',' :: ' ' :: rest)) true rest := by
  have hcomma : (',' == closing) = false := beq_false_of_ne hc
  have hwhite : isWhite ',' = false := rfl
  simp only [separator_cons hwhite, hcomma, skipWhite_blank, hrest]
  exact ⟨Nat.lt_succ_of_lt (Nat.lt_succ_self _), rfl⟩

theorem colon_reads (hrest : skipWhite rest = rest) :
    Reads (colon (':' :: ' ' :: rest)) () rest := by
  unfold colon
  split
  · next h =>
    rw [skipWhite_cons rfl] at h
    cases h
  · next h =>
    rw [skipWhite_cons rfl] at h
    cases h
    simp only [skipWhite_blank, hrest]
    exact ⟨Nat.lt_succ_of_lt (Nat.lt_succ_self _), rfl⟩

theorem memberName_text (name : String) (hrest : skipWhite rest = rest) :
    Reads (memberName (stringText name ++ ':' :: ' ' :: rest)) name rest := by
  have htext : stringText name ++ ':' :: ' ' :: rest =
      '"' :: (name.toList.flatMap charText ++ '"' :: ':' :: ' ' :: rest) := by
    simp [stringText]
  rw [htext]
  obtain ⟨hname, hstring⟩ := stringFrom_text
    ((name.toList.flatMap charText ++ '"' :: ':' :: ' ' :: rest).length + 1)
    name.toList (':' :: ' ' :: rest)
  obtain ⟨hcolon, hmark⟩ := colon_reads hrest
  simp only [memberName, beq_self_eq_true, if_true, hstring, ok_bind, hmark, nameOf_some,
    String.ofList_toList]
  exact ⟨_, rfl⟩

/-! Arrays and objects. -/

theorem items_last (h : Reads (value limits cs) v (']' :: rest)) :
    Reads (items limits cs) [v] rest := by
  obtain ⟨hv, h⟩ := h
  obtain ⟨hm, hmark⟩ := separator_closing ']' rfl rest
  rw [items, h]
  simp only [ok_bind, hmark]
  exact ⟨Nat.lt_trans hm hv, rfl⟩

theorem items_cons {vs : List Json} (h : Reads (value limits cs) v (',' :: ' ' :: more))
    (hwhite : skipWhite more = more) (hmore : Reads (items limits more) vs rest) :
    Reads (items limits cs) (v :: vs) rest := by
  obtain ⟨hv, h⟩ := h
  obtain ⟨hm, hmark⟩ := separator_comma ']' (by decide) hwhite
  obtain ⟨hr, hmore⟩ := hmore
  rw [items, h]
  simp only [ok_bind, hmark, hmore]
  exact ⟨Nat.lt_trans hr (Nat.lt_trans hm hv), rfl⟩

theorem members_last {name : String} {text : List Char} (hname : Reads (memberName cs) name text)
    (h : Reads (value limits text) v ('\x7d' :: rest)) :
    Reads (members limits cs) [(name, v)] rest := by
  obtain ⟨hn, hname⟩ := hname
  obtain ⟨hv, h⟩ := h
  obtain ⟨hm, hmark⟩ := separator_closing '\x7d' rfl rest
  rw [members, hname]
  simp only [ok_bind, h, hmark]
  exact ⟨Nat.lt_trans hm (Nat.lt_trans hv hn), rfl⟩

theorem members_cons {name : String} {text : List Char} {ms : List (String × Json)}
    (hname : Reads (memberName cs) name text)
    (h : Reads (value limits text) v (',' :: ' ' :: more)) (hwhite : skipWhite more = more)
    (hmore : Reads (members limits more) ms rest) :
    Reads (members limits cs) ((name, v) :: ms) rest := by
  obtain ⟨hn, hname⟩ := hname
  obtain ⟨hv, h⟩ := h
  obtain ⟨hm, hmark⟩ := separator_comma '\x7d' (by decide) hwhite
  obtain ⟨hr, hmore⟩ := hmore
  rw [members, hname]
  simp only [ok_bind, h, hmark, hmore]
  exact ⟨Nat.lt_trans hr (Nat.lt_trans hm (Nat.lt_trans hv hn)), rfl⟩

theorem value_emptyArray (hl : limits.inner? = some inner) :
    Reads (value limits ('[' :: ']' :: rest)) (.array []) rest := by
  obtain ⟨hlt, hclosed⟩ := closed?_self ']' rfl rest
  rw [value]
  simp only [hl, hclosed]
  exact ⟨Nat.lt_succ_of_lt hlt, rfl⟩

theorem value_array (hl : limits.inner? = some inner) {vs : List Json}
    (h : Reads (items inner cs) vs rest) : Reads (value limits ('[' :: cs)) (.array vs) rest := by
  have hstart := startsContent_items h
  rw [← hstart.skipWhite_eq] at h
  obtain ⟨hlt, hitems⟩ := h
  have hlt := Nat.lt_of_lt_of_le hlt (length_skipWhite_le cs)
  rw [value]
  simp only [hl, hstart.closed?, hitems]
  exact ⟨Nat.lt_succ_of_lt hlt, rfl⟩

theorem value_emptyObject (hl : limits.inner? = some inner) :
    Reads (value limits ('\x7b' :: '\x7d' :: rest)) (.object []) rest := by
  obtain ⟨hlt, hclosed⟩ := closed?_self '\x7d' rfl rest
  rw [value]
  simp only [hl, hclosed]
  exact ⟨Nat.lt_succ_of_lt hlt, rfl⟩

theorem value_object (hl : limits.inner? = some inner)
    {ms : List (String × Json)} (h : Reads (members inner cs) ms rest) :
    Reads (value limits ('\x7b' :: cs)) (.object (ofPairs ms)) rest := by
  have hstart := startsContent_members h
  rw [← hstart.skipWhite_eq] at h
  obtain ⟨hlt, hmembers⟩ := h
  have hlt := Nat.lt_of_lt_of_le hlt (length_skipWhite_le cs)
  rw [value]
  simp only [hl, hstart.closed?, hmembers]
  exact ⟨Nat.lt_succ_of_lt hlt, rfl⟩

theorem value_string {s : List (Option Char)}
    (h : ∀ opening, Reads (stringFrom opening cs) s rest) :
    Reads (value limits ('"' :: cs)) (ofString s) rest := by
  obtain ⟨hlt, h⟩ := h (cs.length + 1)
  rw [value]
  simp only [beq_self_eq_true, if_true, h]
  exact ⟨Nat.lt_succ_of_lt hlt, rfl⟩

theorem value_stringText (s : String) (rest : List Char) :
    Reads (value limits (stringText s ++ rest)) (.string s) rest := by
  have htext : stringText s ++ rest = '"' :: (s.toList.flatMap charText ++ '"' :: rest) := by
    simp [stringText]
  rw [htext, ← String.ofList_toList (s := s), ← ofString_some, String.toList_ofList]
  exact value_string fun opening => stringFrom_text opening s.toList rest

/-- The value is read off the front of every text that does not go on with a number. -/
def ReadBack (limits : Limits) (v : Json) : Prop :=
  ∀ rest, EndsNumber rest → Reads (value limits (chars v ++ rest)) v rest

theorem endsNumber_mark {c : Char} (hc : c ∈ [',', ']', '\x7d']) (cs : List Char) :
    EndsNumber (c :: cs) := by
  intro d hd
  cases hd
  simp only [List.mem_cons, List.not_mem_nil, or_false] at hc
  rcases hc with rfl | rfl | rfl <;> exact ⟨rfl, by decide, rfl⟩

theorem items_text {vs : List Json} (hne : vs ≠ []) (h : ∀ v ∈ vs, ReadBack limits v)
    (rest : List Char) : Reads (items limits (itemChars vs ++ ']' :: rest)) vs rest := by
  induction vs with
  | nil => exact absurd rfl hne
  | cons v vs ih =>
    rw [List.forall_mem_cons] at h
    cases vs with
    | nil => exact items_last (h.1 _ (endsNumber_mark (by decide) rest))
    | cons w ws =>
      have hmore := ih (List.cons_ne_nil w ws) h.2
      rw [itemChars, List.append_assoc, List.cons_append, List.cons_append]
      · exact items_cons (h.1 _ (endsNumber_mark (by decide) _))
          (startsContent_items hmore).skipWhite_eq hmore
      · exact List.cons_ne_nil w ws

theorem members_text {ms : List (String × Json)} (hne : ms ≠ [])
    (h : ∀ m ∈ ms, ReadBack limits m.2) (rest : List Char) :
    Reads (members limits (memberChars ms ++ '\x7d' :: rest)) ms rest := by
  induction ms with
  | nil => exact absurd rfl hne
  | cons m ms ih =>
    obtain ⟨name, v⟩ := m
    rw [List.forall_mem_cons] at h
    cases ms with
    | nil =>
      have hv := h.1 _ (endsNumber_mark (c := '\x7d') (by decide) rest)
      rw [memberChars, List.append_assoc, List.cons_append, List.cons_append]
      exact members_last (memberName_text name (startsContent_value hv.2).skipWhite_eq) hv
    | cons w ws =>
      have hmore := ih (List.cons_ne_nil w ws) h.2
      have hv := h.1 _ (endsNumber_mark (c := ',') (by decide)
        (' ' :: (memberChars (w :: ws) ++ '\x7d' :: rest)))
      rw [memberChars, List.append_assoc, List.cons_append, List.cons_append, List.append_assoc,
        List.cons_append, List.cons_append]
      · exact members_cons (memberName_text name (startsContent_value hv.2).skipWhite_eq) hv
          (startsContent_members hmore).skipWhite_eq hmore
      · exact List.cons_ne_nil w ws

theorem readBack_array (hl : limits.inner? = some inner) {vs : List Json}
    (h : ∀ v ∈ vs, ReadBack inner v) : ReadBack limits (.array vs) := by
  intro rest _
  have htext : chars (.array vs) ++ rest = '[' :: (itemChars vs ++ ']' :: rest) := by
    simp [chars]
  rw [htext]
  by_cases hne : vs = []
  · rw [hne]
    exact value_emptyArray hl
  · exact value_array hl (items_text hne h rest)

theorem readBack_object (hl : limits.inner? = some inner) {ms : List (String × Json)}
    (hn : (ms.map Prod.fst).Nodup) (h : ∀ m ∈ ms, ReadBack inner m.2) :
    ReadBack limits (.object ms) := by
  intro rest _
  have htext : chars (.object ms) ++ rest = '\x7b' :: (memberChars ms ++ '\x7d' :: rest) := by
    simp [chars]
  rw [htext]
  by_cases hne : ms = []
  · rw [hne]
    exact value_emptyObject hl
  · have hread : Reads (value limits _) _ rest := value_object hl (members_text hne h rest)
    rwa [ofPairs_nodup hn] at hread

theorem readBack_string (s : String) : ReadBack limits (.string s) := by
  intro rest _
  rw [chars]
  exact value_stringText s rest

theorem readBack_unpaired : ReadBack limits .unpaired := by
  intro rest _
  have htext : chars .unpaired ++ rest = '"' :: '\\' :: 'u' :: (hex 4 0xD800 ++ '"' :: rest) := by
    simp [chars, unitEscape]
  rw [htext]
  exact value_string fun opening =>
    stringFrom_unit (unit?_hex (by decide) (List.cons_ne_nil _ _)) rfl stringFrom_quote

theorem Distinct.readBack (h : Distinct v) (hw : Within limits v) : ReadBack limits v := by
  -- The limits vary: what stands inside an array or an object has one level less.
  induction h generalizing limits with
  | null => exact fun rest _ => value_word (by simp [words, chars]) rest
  | bool b => cases b <;> exact fun rest _ => value_word (by simp [words, chars]) rest
  | int n =>
    cases hw with
    | int hl => exact fun rest hrest => value_int hl hrest
  | float x => exact fun rest hrest => value_float x hrest
  | string s => exact readBack_string s
  | unpaired => exact readBack_unpaired
  | array h ih =>
    cases hw with
    | array hl hw => exact readBack_array hl fun v hv => ih v hv (hw v hv)
  | object hn h ih =>
    cases hw with
    | object hl hw => exact readBack_object hl hn fun m hm => ih m hm (hw m hm)

theorem ofTextWithin_text (h : Reads (value limits v.chars) v []) :
    ofTextWithin limits v.text = .ok v := by
  have hwhite : skipWhite v.chars = v.chars := by
    obtain ⟨_, h⟩ := h
    exact (startsContent_value h).skipWhite_eq
  rw [← hwhite] at h
  obtain ⟨hlt, h⟩ := h
  rw [ofTextWithin, text, String.toList_ofList, h]
  rfl

theorem ofTextWithin_ok (h : Distinct v) (hw : Within limits v) :
    ofTextWithin limits v.text = .ok v := by
  have hread := h.readBack hw [] (by simp [EndsNumber])
  rw [List.append_nil] at hread
  exact ofTextWithin_text hread

theorem ofText_text (h : Distinct v) : ofText v.text = .ok v :=
  ofTextWithin_ok h h.unlimited

end Json
end Reckoner
