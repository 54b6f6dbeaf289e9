import Mathlib.Data.List.Infix
import Reckoner.Log.Archive
import Reckoner.Proofs.Json.Visible

/-!
A log file with its backups. Its lines, the oldest first, are the last of those that were written: the
file is closed in time, the backups stay within their count, and what goes is the oldest backup.
-/

namespace Reckoner
open Text

theorem Text.splitAtEach_append {mark : Char} {piece : List Char} (h : mark ∉ piece)
    (cs : List Char) : splitAtEach mark (piece ++ mark :: cs) = piece :: splitAtEach mark cs := by
  induction piece with
  | nil => simp [splitAtEach]
  | cons c piece ih =>
    rw [List.mem_cons, not_or] at h
    have hc : (c == mark) = false := beq_false_of_ne (Ne.symm h.1)
    rw [List.cons_append, splitAtEach, hc, ih h.2]
    rfl

def Place.numbered (place : Place) : Nat → Place
  | 0 => place
  | n + 1 => place.extended ('.' :: digits (n + 1))

namespace Log
namespace Archive

variable {r : Rotation} {a : Archive} {line : String} {lines written : List String}

/-! Files as texts. -/

theorem toList_text (lines : List String) :
    (text lines).toList = lines.flatMap fun line => line.toList ++ ['\n'] := by
  rw [text, String.toList_join, List.flatMap_map]
  simp only [String.toList_append]
  rfl

theorem split_text (h : ∀ line ∈ lines, '\n' ∉ line.toList) :
    splitAtEach '\n' (text lines).toList = lines.map String.toList ++ [[]] := by
  rw [toList_text]
  induction lines with
  | nil => rfl
  | cons line lines ih =>
    rw [List.forall_mem_cons] at h
    rw [List.flatMap_cons, List.append_assoc, List.singleton_append, splitAtEach_append h.1, ih h.2]
    rfl

theorem count_text (h : ∀ line ∈ lines, '\n' ∉ line.toList) :
    (text lines).toList.count '\n' = lines.length := by
  rw [toList_text]
  induction lines with
  | nil => rfl
  | cons line lines ih =>
    rw [List.forall_mem_cons] at h
    rw [List.flatMap_cons, List.count_append, List.count_append, ih h.2,
      List.count_eq_zero.mpr h.1, List.length_cons, List.count_singleton_self]
    omega

theorem text_ends (lines : List String) :
    text lines = "" ∨ (text lines).toList.getLast? = some '\n' := by
  cases List.eq_nil_or_concat lines with
  | inl h =>
    rw [h]
    exact .inl rfl
  | inr h =>
    obtain ⟨before, last, rfl⟩ := h
    rw [toList_text]
    exact .inr (by simp)

theorem size_cons (line : String) (lines : List String) :
    size (line :: lines) = line.utf8ByteSize + 1 + size lines := rfl

theorem size_concat (lines : List String) (line : String) :
    size (lines ++ [line]) = size lines + line.utf8ByteSize + 1 := by
  induction lines with
  | nil => simp [size]
  | cons first lines ih =>
    rw [List.cons_append, size_cons, size_cons, ih]
    omega

theorem utf8ByteSize_text (lines : List String) : (text lines).utf8ByteSize = size lines := by
  induction lines with
  | nil => rfl
  | cons line lines ih =>
    have htext : text (line :: lines) = line ++ "\n" ++ text lines := String.join_cons
    rw [htext, String.utf8ByteSize_append, String.utf8ByteSize_append, ih, size_cons]
    rfl

/-! The lines that are kept. -/

/-- The lines of all files, the oldest first. -/
def kept (a : Archive) : List String :=
  a.backups.reverse.flatten ++ a.current

theorem files_fst (place : Place) (a : Archive) :
    (a.files place).map Prod.fst = (List.range (a.files place).length).map place.numbered := by
  rw [files]
  refine List.ext_getElem (by simp) fun i h _ => ?_
  cases i <;> simp [Place.numbered]

theorem files_snd (place : Place) (a : Archive) :
    (a.files place).map Prod.snd = (a.current :: a.backups).map text := by
  rw [files]
  refine List.ext_getElem (by simp) fun i h _ => ?_
  cases i <;> simp

theorem read_files (place : Place) (a : Archive) :
    (a.files place).reverse.flatMap (·.2.toList) = (text a.kept).toList := by
  have hread : (a.files place).reverse.flatMap (·.2.toList) =
      ((a.files place).map Prod.snd).reverse.flatMap String.toList := by
    rw [← List.map_reverse, List.flatMap_map]
  rw [hread, files_snd, ← List.map_reverse, List.flatMap_map, toList_text, kept, List.reverse_cons]
  simp only [toList_text, List.flatMap_append, List.flatMap_singleton]
  rw [List.flatten_eq_flatMap, List.flatMap_assoc]
  rfl

theorem append_cases (r : Rotation) (a : Archive) (line : String) :
    (a.append r line = ⟨a.current ++ [line], a.backups⟩ ∧
      (0 < r.maxBytes → 0 < r.backupCount →
        (size a.current : Int) + line.length + 1 < r.maxBytes)) ∨
    (0 < r.maxBytes ∧ 0 < r.backupCount ∧ a.append r line =
      ⟨[line], a.current :: a.backups.take (r.backupCount.toNat - 1) ++
        a.backups.drop r.backupCount.toNat⟩) := by
  unfold append
  cases hfull : isFull r a line with
  | false =>
    refine .inl ⟨rfl, fun hmax _ => ?_⟩
    simp only [isFull, Bool.and_eq_false_iff, decide_eq_false_iff_not] at hfull
    omega
  | true =>
    simp only [isFull, Bool.and_eq_true, decide_eq_true_eq] at hfull
    by_cases hcount : 0 < r.backupCount
    · refine .inr ⟨hfull.1, hcount, ?_⟩
      rw [if_pos rfl, rollOver, if_pos hcount]
      rfl
    · refine .inl ⟨?_, fun _ h => absurd h hcount⟩
      rw [if_pos rfl, rollOver, if_neg hcount]

/-- What the files hold when these lines have been written, the oldest first. The last ones are kept,
and all of them where nothing had to go. The files keep to the settings. -/
structure Holds (r : Rotation) (a : Archive) (written : List String) : Prop where
  suffix : a.kept <:+ written
  newest : a.kept = [] → written = []
  complete : r.maxBytes ≤ 0 ∨ r.backupCount ≤ 0 ∨ a.backups.length < r.backupCount →
    a.kept = written
  count : a.backups.length ≤ r.backupCount.toNat
  small : 0 < r.maxBytes → 0 < r.backupCount →
    ∀ file ∈ a.current :: a.backups, file.length ≤ 1 ∨ size file < r.maxBytes

theorem holds_empty (r : Rotation) : Holds r .empty [] where
  suffix := List.suffix_refl []
  newest := fun _ => rfl
  complete := fun _ => rfl
  count := Nat.zero_le _
  small := fun _ _ => List.forall_mem_singleton.mpr (.inl (Nat.zero_le 1))

theorem suffix_concat {xs ys : List String} (h : xs <:+ ys) (line : String) :
    xs ++ [line] <:+ ys ++ [line] := by
  obtain ⟨gone, rfl⟩ := h
  exact ⟨gone, (List.append_assoc gone xs [line]).symm⟩

theorem Holds.stay (h : Holds r a written) (hline : line.utf8ByteSize = line.length)
    (hroom : 0 < r.maxBytes → 0 < r.backupCount →
      (size a.current : Int) + line.length + 1 < r.maxBytes) :
    Holds r ⟨a.current ++ [line], a.backups⟩ (written ++ [line]) := by
  have hkept : (Archive.mk (a.current ++ [line]) a.backups).kept = a.kept ++ [line] :=
    (List.append_assoc _ a.current [line]).symm
  constructor
  · rw [hkept]
    exact suffix_concat h.suffix line
  · rw [hkept]
    simp
  · intro hall
    rw [hkept, h.complete hall]
  · exact h.count
  · intro hmax hcount
    have hsmall := h.small hmax hcount
    have hroom := hroom hmax hcount
    rw [List.forall_mem_cons] at hsmall ⊢
    refine ⟨.inr ?_, hsmall.2⟩
    rw [size_concat]
    omega

theorem Holds.turn (h : Holds r a written) (hmax : 0 < r.maxBytes) (hcount : 0 < r.backupCount) :
    Holds r ⟨[line], a.current :: a.backups.take (r.backupCount.toNat - 1)⟩
      (written ++ [line]) := by
  let n := r.backupCount.toNat - 1
  have hkept : (Archive.mk [line] (a.current :: a.backups.take n)).kept =
      ((a.backups.take n).reverse.flatten ++ a.current) ++ [line] := by
    simp [kept]
  have hsuffix : (a.backups.take n).reverse.flatten ++ a.current <:+ a.kept := by
    have hsplit : a.kept = (a.backups.drop n).reverse.flatten ++
        ((a.backups.take n).reverse.flatten ++ a.current) := by
      rw [kept, ← List.append_assoc, ← List.flatten_append, ← List.reverse_append,
        List.take_append_drop]
    exact ⟨_, hsplit.symm⟩
  constructor
  · rw [hkept]
    exact suffix_concat (hsuffix.trans h.suffix) line
  · rw [hkept]
    simp
  · intro hall
    rw [List.length_cons, List.length_take] at hall
    have hlen : a.backups.length ≤ n := by omega
    have hall : (a.backups.length : Int) < r.backupCount := by omega
    rw [hkept, List.take_of_length_le hlen, ← h.complete (.inr (.inr hall))]
    rfl
  · rw [List.length_cons, List.length_take]
    omega
  · intro _ _
    have hsmall := h.small hmax hcount
    rw [List.forall_mem_cons] at hsmall
    refine List.forall_mem_cons.mpr ⟨.inl (Nat.le_refl 1), List.forall_mem_cons.mpr ⟨hsmall.1, ?_⟩⟩
    exact fun file hfile => hsmall.2 file (List.mem_of_mem_take hfile)

theorem Holds.append (h : Holds r a written) (hline : line.utf8ByteSize = line.length) :
    Holds r (a.append r line) (written ++ [line]) := by
  rcases append_cases r a line with ⟨hstay, hroom⟩ | ⟨hmax, hcount, hturn⟩
  · rw [hstay]
    exact h.stay hline hroom
  · rw [hturn, List.drop_eq_nil_of_le h.count, List.append_nil]
    exact h.turn hmax hcount

end Archive

/-- Files that hold the last of some lines: the newest in the file at the place, and older ones in
backups that are numbered from the newest on. Every file ends with a line. Read from the oldest one on
they give the lines that are kept, which are all lines where nothing had to go. Where the settings
limit the files, they are few and small. -/
structure Trail (place : Place) (r : Rotation) (lines : List String)
    (files : List (Place × String)) : Prop where
  places : files.map Prod.fst = (List.range files.length).map place.numbered
  whole : ∀ f ∈ files, f.2 = "" ∨ f.2.toList.getLast? = some '\n'
  read : ∃ kept : List String,
    splitAtEach '\n' (files.reverse.flatMap (·.2.toList)) = kept.map String.toList ++ [[]] ∧
    kept <:+ lines ∧ (kept = [] → lines = []) ∧
    (r.maxBytes ≤ 0 ∨ r.backupCount ≤ 0 ∨ files.length ≤ r.backupCount → kept = lines)
  bounded : 0 < r.maxBytes → 0 < r.backupCount →
    files.length ≤ r.backupCount + 1 ∧
    ∀ f ∈ files, f.2.toList.count '\n' ≤ 1 ∨ (f.2.utf8ByteSize : Int) < r.maxBytes

theorem trail_nil (place : Place) (r : Rotation) : Trail place r [] [] where
  places := rfl
  whole := nofun
  read := ⟨[], rfl, List.suffix_refl [], fun _ => rfl, fun _ => rfl⟩
  bounded := fun _ hcount => ⟨by rw [List.length_nil]; omega, nofun⟩

theorem Archive.Holds.trail {r : Rotation} {a : Archive} {written : List String}
    (h : a.Holds r written) (hwritten : ∀ line ∈ written, '\n' ∉ line.toList) (place : Place) :
    Trail place r written (a.files place) := by
  have hlines : ∀ file ∈ a.current :: a.backups, ∀ line ∈ file, '\n' ∉ line.toList := by
    intro file hfile line hline
    refine hwritten line (h.suffix.mem ?_)
    rw [Archive.kept]
    cases hfile with
    | head => exact List.mem_append_right _ hline
    | tail _ hfile =>
      exact List.mem_append_left _ (List.mem_flatten.mpr ⟨file, List.mem_reverse.mpr hfile, hline⟩)
  have hfiles : ∀ f ∈ a.files place, ∃ file ∈ a.current :: a.backups, Archive.text file = f.2 := by
    intro f hf
    have hmem := List.mem_map_of_mem (f := Prod.snd) hf
    rw [Archive.files_snd] at hmem
    exact List.mem_map.mp hmem
  have hlength : (a.files place).length = a.backups.length + 1 := by
    simp [Archive.files]
  constructor
  · exact Archive.files_fst place a
  · intro f hf
    obtain ⟨file, -, hfile⟩ := hfiles f hf
    rw [← hfile]
    exact Archive.text_ends file
  · refine ⟨a.kept, ?_, h.suffix, h.newest, fun hall => h.complete ?_⟩
    · rw [Archive.read_files]
      exact Archive.split_text fun line hline => hwritten line (h.suffix.mem hline)
    · rw [hlength] at hall
      omega
  · intro hmax hcount
    have hbackups := h.count
    refine ⟨by omega, fun f hf => ?_⟩
    obtain ⟨file, hfile, htext⟩ := hfiles f hf
    rw [← htext, Archive.count_text (hlines file hfile), Archive.utf8ByteSize_text]
    exact h.small hmax hcount file hfile

end Log
end Reckoner
