import Reckoner.Proofs.History.Refinement

/-!
A store seen as the list of the items that were saved in it. Whether they are kept in memory or as
rows of a table, counting, saving and paging follow this list.
-/

namespace Reckoner

/-- An item as a store of the kind gives it back. -/
def Backend.kept : Backend → Item → Item
  | .memory => id
  | .database => Item.readBack

@[simp]
theorem Item.unsignedZero_unsignedZero (i : Item) :
    i.unsignedZero.unsignedZero = i.unsignedZero := by
  have hne : Binary64.zero false ≠ .zero true := by decide
  by_cases h : i.result = .zero true
  · simp only [Item.unsignedZero, if_pos h, if_neg hne]
  · simp only [Item.unsignedZero, if_neg h]

theorem Item.readBack_eq {i : Item} (h : i.createdAt.Expressible) :
    i.readBack = i.unsignedZero := by
  rw [readBack, Timestamp.expressible_iff.mp h]
  rfl

theorem Backend.unsignedZero_kept (b : Backend) {i : Item} (h : i.createdAt.Expressible) :
    (b.kept i).unsignedZero = i.unsignedZero := by
  cases b with
  | memory => rfl
  | database => rw [kept, Item.readBack_eq h, Item.unsignedZero_unsignedZero]

namespace Row

theorem mapM_item_eq_ok {rows : List Row} {items : List Item} :
    rows.mapM item = .ok items ↔ rows.map item = items.map .ok := by
  induction rows generalizing items with
  | nil => cases items <;> simp [pure, Except.pure]
  | cons r rs ih =>
    rw [List.mapM_cons, List.map_cons]
    constructor
    · intro h
      obtain ⟨i, hi, h⟩ := bind_eq_ok h
      obtain ⟨is, his, h⟩ := bind_eq_ok h
      cases h
      rw [hi, ih.mp his, List.map_cons]
    · intro h
      cases items with
      | nil => cases h
      | cons i is =>
        rw [List.map_cons, List.cons.injEq] at h
        rw [h.1, ih.mpr h.2]
        rfl

end Row

namespace Store

def Holds (items : List Item) : Store → Prop
  | .memory stored => stored = items
  | .database rows => rows = items.map Row.ofItem ∧ ∀ i ∈ items, i.Distinct

def ids : Store → List String
  | .memory items => items.map (·.id)
  | .database rows => rows.map (·.id)

/-- All items, as the store gives them back. -/
def contents : Store → Except StoreFault (List Item)
  | .memory items => .ok items
  | .database rows => rows.mapM Row.item

variable {s s' : Store} {items : List Item} {i : Item} {take skip : Int}

/-! What a store finds is a page of its contents. -/

theorem length_contents (h : s.contents = .ok items) : items.length = s.count := by
  cases s with
  | memory stored =>
    cases h
    rfl
  | database rows =>
    have hlen := congrArg List.length (Row.mapM_item_eq_ok.mp h)
    rw [List.length_map, List.length_map] at hlen
    exact hlen.symm

theorem page_eq_take {α : Type} (ht : 0 ≤ take) (items : List α) :
    page take skip items = (items.drop skip.toNat).take take.toNat :=
  if_neg (Int.not_lt.mpr ht)

/-- Bounds that the store takes: any of a store in memory, and those of 64 bits of a database. -/
def Takes (s : Store) (take skip : Int) : Prop :=
  s.backend = .memory ∨ take < 2 ^ 63 ∧ skip < 2 ^ 63

theorem find_of_contents (h : s.contents = .ok items) (ht : 0 ≤ take) (hk : 0 ≤ skip)
    (hs : s.Takes take skip) : s.find take skip = .ok (page take skip items) := by
  cases s with
  | memory stored =>
    cases h
    rw [find, slice_eq_page ht hk]
  | database rows =>
    obtain ⟨ht', hk'⟩ := hs.resolve_left (by simp [backend])
    have hfits : (fits take && fits skip) = true := by
      simp [fits]
      omega
    rw [find, if_pos hfits, Row.mapM_item_eq_ok, ← page_map, Row.mapM_item_eq_ok.mp h, page_map]

theorem find_outOfRange (ht : 0 ≤ take) (hk : 0 ≤ skip) (hs : ¬ s.Takes take skip) :
    s.find take skip = .error .outOfRange := by
  obtain ⟨hbackend, hfits⟩ := not_or.mp hs
  cases s with
  | memory stored => exact absurd rfl hbackend
  | database rows =>
    have hfits : (fits take && fits skip) = false := by
      rw [← Bool.not_eq_true]
      simp [fits]
      omega
    rw [find, hfits]
    rfl

theorem find_all (h : s.contents = .ok items) (hcount : s.count ≤ take) (htake : take < 2 ^ 63) :
    s.find take 0 = .ok items := by
  rw [← length_contents h] at hcount
  rw [find_of_contents h (by omega) (Int.le_refl 0) (.inr ⟨htake, by decide⟩),
    page_eq_take (by omega), Int.toNat_zero, List.drop_zero, List.take_of_length_le (by omega)]

/-! Saved items. -/

theorem holds_empty (b : Backend) : Holds [] (empty b) := by
  cases b with
  | memory => rfl
  | database => exact ⟨rfl, fun _ hi => nomatch hi⟩

namespace Holds

theorem count (h : s.Holds items) : s.count = items.length := by
  cases s with
  | memory stored => rw [show stored = items from h, Store.count]
  | database rows => rw [h.1, Store.count, List.length_map]

theorem save (h : s.Holds items) (hi : i.Distinct) (hs : s.save i = .ok s') :
    s'.Holds (items ++ [i]) := by
  cases s with
  | memory stored =>
    cases hs
    exact congrArg (· ++ [i]) h
  | database rows =>
    obtain ⟨rfl, hrows⟩ := h
    rw [Store.save] at hs
    split at hs
    · cases hs
    split at hs
    · cases hs
    · cases hs
      refine ⟨by simp, ?_⟩
      rw [List.forall_mem_append, List.forall_mem_singleton]
      exact ⟨hrows, hi⟩

theorem contents (h : s.Holds items) : s.contents = .ok (items.map s.backend.kept) := by
  cases s with
  | memory stored =>
    rw [show stored = items from h]
    exact congrArg Except.ok (List.map_id items).symm
  | database rows =>
    obtain ⟨rfl, hrows⟩ := h
    exact Row.mapM_item hrows

theorem find (h : s.Holds items) (ht : 0 ≤ take ∧ take < 2 ^ 63) (hk : 0 ≤ skip ∧ skip < 2 ^ 63) :
    s.find take skip = .ok ((page take skip items).map s.backend.kept) := by
  rw [find_of_contents h.contents ht.1 hk.1 (.inr ⟨ht.2, hk.2⟩), page_map]

theorem of_find (h : s.Holds items) {listed : List Item} (hf : s.find take skip = .ok listed) :
    ∀ j ∈ listed, ∃ i ∈ items, s.backend.kept i = j := by
  intro j hj
  cases s with
  | memory stored =>
    cases hf
    rw [show stored = items from h] at hj
    exact ⟨j, List.mem_of_mem_drop (List.mem_of_mem_take hj), rfl⟩
  | database rows =>
    obtain ⟨rfl, hrows⟩ := h
    rw [Store.find] at hf
    split at hf
    · rw [page_map, Row.mapM_item fun i hi => hrows i (mem_of_mem_page hi)] at hf
      cases hf
      obtain ⟨i, hi, rfl⟩ := List.mem_map.mp hj
      exact ⟨i, mem_of_mem_page hi, rfl⟩
    · cases hf

end Holds

theorem page_append_last (hk : 0 ≤ skip) (hlen : skip ≤ items.length)
    (hend : items.length < skip + take) :
    page take skip (items ++ [i]) = items.drop skip.toNat ++ [i] := by
  rw [page, if_neg (by omega), List.drop_append_of_le_length (by omega), List.take_of_length_le]
  rw [List.length_append, List.length_drop, List.length_singleton]
  omega

theorem save_ok (h : s.save i = .ok s') : s'.backend = s.backend ∧ s'.count = s.count + 1 := by
  cases s with
  | memory items =>
    cases h
    exact ⟨rfl, List.length_append⟩
  | database rows =>
    rw [save] at h
    split at h
    · cases h
    split at h
    · cases h
    · cases h
      exact ⟨rfl, List.length_append⟩

theorem save_new (hid : i.id ∉ s.ids) (hx : s.backend = .memory ∨ i.result ≠ .nan) :
    ∃ s', s.save i = .ok s' := by
  cases s with
  | memory items => exact ⟨_, rfl⟩
  | database rows =>
    have hnan : i.result ≠ .nan := hx.resolve_left (by simp [backend])
    have hany : rows.any (·.id == i.id) = false := by
      rw [List.any_eq_false]
      intro r hr h
      exact hid (eq_of_beq h ▸ List.mem_map_of_mem hr)
    rw [save, if_neg hnan, hany]
    exact ⟨_, rfl⟩

end Store
end Reckoner
