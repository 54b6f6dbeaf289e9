import Reckoner.Log.Entry
import Reckoner.Log.Journal
import Reckoner.Proofs.Log.Archive
import Reckoner.Proofs.Outcome

/-!
The log of a program in a fresh folder. However often it is set up again, with whatever levels, the
records that pass the level in force are written once and in order, and only the oldest go.
-/

namespace Reckoner.Log
open Text

structure Call where
  entry : Entry
  file : String
  line : Int
  function : String
  created : Timestamp.Seconds

namespace Call

def record (c : Call) : Record :=
  c.entry.record c.file c.line c.function c.created

/-- The logger belongs to the program, and the calendar has the time. -/
structure Proper (c : Call) : Prop where
  owned : Journal.owns c.entry.logger = true
  timed : ∃ t, c.record.time = .ok t

theorem Proper.jsonLine {c : Call} (h : c.Proper) : ∃ v : Json, c.record.jsonLine = .ok v.text := by
  obtain ⟨t, ht⟩ := h.timed
  have hmessage : c.record.message = .ok c.entry.message := rfl
  rw [Record.jsonLine, Record.json, ht, hmessage]
  exact ⟨_, rfl⟩

end Call

namespace Journal

variable {j : Journal} {place : Place} {a b : Archive} {ps old : List (Place × Archive)}

/-! One log among others. -/

theorem withArchive_new (h : place ∉ ps.map Prod.fst) :
    withArchive place a ps = ps ++ [(place, a)] := by
  induction ps with
  | nil => rfl
  | cons p ps ih =>
    rw [List.map_cons, List.mem_cons, not_or] at h
    have hp : (p.1 == place) = false := beq_false_of_ne (Ne.symm h.1)
    rw [withArchive, hp, ih h.2]
    rfl

theorem withArchive_last (h : place ∉ ps.map Prod.fst) :
    withArchive place a (ps ++ [(place, b)]) = ps ++ [(place, a)] := by
  induction ps with
  | nil =>
    rw [List.nil_append, withArchive, if_pos (beq_self_eq_true place)]
    rfl
  | cons p ps ih =>
    rw [List.map_cons, List.mem_cons, not_or] at h
    have hp : (p.1 == place) = false := beq_false_of_ne (Ne.symm h.1)
    rw [List.cons_append, withArchive, hp, ih h.2]
    rfl

theorem lookup_new (h : place ∉ ps.map Prod.fst) : ps.lookup place = none := by
  rw [List.lookup_eq_none_iff]
  intro p hp
  exact bne_iff_ne.mpr fun hplace => h (List.mem_map.mpr ⟨p, hp, hplace.symm⟩)

theorem archiveAt_last (h : place ∉ old.map Prod.fst) (hj : j.archives = old ++ [(place, a)]) :
    j.archiveAt place = a := by
  rw [archiveAt, hj, List.lookup_append, lookup_new h]
  simp

/-- The log at the place holds what was written since it was begun, and the other logs are still as
they were then. -/
def Logs (old : List (Place × Archive)) (place : Place) (r : Rotation) (written : List String)
    (j : Journal) : Prop :=
  ∃ a, j.archives = old ++ [(place, a)] ∧ a.Holds r written

section Steps

variable {s : Setup} {r : Rotation} {written lines : List String}

theorem logs_configure_new (hplace : s.place? = some place) (h : place ∉ j.archives.map Prod.fst) :
    Logs j.archives place r [] (j.configure s) := by
  refine ⟨.empty, ?_, Archive.holds_empty r⟩
  have hempty : j.archiveAt place = .empty := by
    rw [archiveAt, lookup_new h]
    rfl
  rw [configure, hplace]
  dsimp only
  rw [hempty, withArchive_new h]

theorem Logs.configure (hj : Logs old place r written j) (hplace : s.place? = some place)
    (h : place ∉ old.map Prod.fst) : Logs old place r written (j.configure s) := by
  obtain ⟨a, ha, hholds⟩ := hj
  refine ⟨a, ?_, hholds⟩
  rw [Journal.configure, hplace]
  dsimp only
  rw [archiveAt_last h ha, ha, withArchive_last h]

theorem configure_setup (s : Setup) (j : Journal) : (j.configure s).setup = s := by
  rw [configure]
  split <;> rfl

theorem Logs.store (hj : Logs old place j.setup.rotation written j)
    (hplace : j.setup.place? = some place) (h : place ∉ old.map Prod.fst) {line : String}
    (hline : ∀ c ∈ line.toList, Visible c) :
    Logs old place j.setup.rotation (written ++ [line]) (j.store line) := by
  obtain ⟨a, ha, hholds⟩ := hj
  refine ⟨a.append j.setup.rotation line, ?_, hholds.append (utf8ByteSize_of_visible hline)⟩
  rw [Journal.store, hplace]
  dsimp only
  rw [archiveAt_last h ha, ha, withArchive_last h]

theorem store_setup (line : String) (j : Journal) : (j.store line).setup = j.setup := by
  rw [Journal.store]
  split <;> rfl

theorem write_fst {c : Call} (hc : c.Proper) {line : String} (hline : c.record.jsonLine = .ok line)
    (j : Journal) :
    (j.write c.record).1 = if passes j.setup c.record then j.store line else j := by
  have howned : owns c.record.logger = true := hc.owned
  by_cases hpasses : passes j.setup c.record = true <;> simp [write, howned, hline, hpasses]

theorem writeAll_cons (r : Record) (rs : List Record) (j : Journal) :
    (j.writeAll (r :: rs)).1 = ((j.write r).1.writeAll rs).1 := by
  have hfold : ∀ (rs : List Record) (j : Journal),
      (j.writeAll rs).1 = rs.foldl (fun j r => (j.write r).1) j :=
    fun _ _ => (List.foldl_hom Prod.fst fun _ _ => rfl).symm
  rw [hfold, hfold, List.foldl_cons]

theorem Logs.calls {cs : List Call} (hcs : ∀ c ∈ cs, c.Proper) (hs : j.setup = s)
    (hplace : s.place? = some place) (h : place ∉ old.map Prod.fst)
    (hj : Logs old place s.rotation written j) :
    ∃ lines : List String,
      ((cs.map Call.record).filter (passes s)).map (·.jsonLine) = lines.map .ok ∧
      (∀ line ∈ lines, ∀ c ∈ line.toList, Visible c) ∧
      Logs old place s.rotation (written ++ lines) (j.writeAll (cs.map Call.record)).1 := by
  induction cs generalizing j written with
  | nil => exact ⟨[], rfl, nofun, by rwa [List.append_nil]⟩
  | cons c cs ih =>
    rw [List.forall_mem_cons] at hcs
    obtain ⟨v, hline⟩ := hcs.1.jsonLine
    have hwrite := write_fst hcs.1 hline j
    rw [List.map_cons, writeAll_cons, hwrite, hs]
    by_cases hpasses : passes s c.record = true
    · have hstore : Logs old place s.rotation (written ++ [v.text]) (j.store v.text) := by
        subst hs
        exact hj.store hplace h v.visible_text
      obtain ⟨lines, hlines, hvisible, hlogs⟩ :=
        ih hcs.2 ((store_setup v.text j).trans hs) hstore
      refine ⟨v.text :: lines, ?_, List.forall_mem_cons.mpr ⟨v.visible_text, hvisible⟩, ?_⟩
      · rw [List.filter_cons_of_pos hpasses, List.map_cons, hline, hlines, List.map_cons]
      · rw [if_pos hpasses]
        rwa [List.append_assoc] at hlogs
    · rw [List.filter_cons_of_neg hpasses, if_neg hpasses]
      exact ih hcs.2 hs hj

end Steps

end Journal

structure Session where
  level : Level
  calls : List Call

namespace Session

variable (folder : String) (rotation : Rotation)

def place : Place :=
  (Place.ofPath folder).step fileName.toList

def setup (s : Session) : Setup :=
  ⟨s.level, some folder, rotation⟩

def run (j : Journal) (s : Session) : Journal :=
  ((j.configure (s.setup folder rotation)).writeAll (s.calls.map Call.record)).1

/-- The records that pass the level in force. -/
def passed (s : Session) : List Record :=
  (s.calls.map Call.record).filter (Journal.passes (s.setup folder rotation))

variable {folder rotation} {s : Session} {j : Journal} {old : List (Place × Archive)}
  {written : List String}

theorem run_logs (hs : ∀ c ∈ s.calls, c.Proper) (h : place folder ∉ old.map Prod.fst)
    (hj : (j.configure (s.setup folder rotation)).Logs old (place folder) rotation written) :
    ∃ lines : List String,
      (s.passed folder rotation).map (·.jsonLine) = lines.map .ok ∧
      (∀ line ∈ lines, ∀ c ∈ line.toList, Visible c) ∧
      (s.run folder rotation j).Logs old (place folder) rotation (written ++ lines) :=
  Journal.Logs.calls (s := s.setup folder rotation) hs (Journal.configure_setup _ j) rfl h hj

theorem runs_logs {ss : List Session} (hss : ∀ s ∈ ss, ∀ c ∈ s.calls, c.Proper)
    (h : place folder ∉ old.map Prod.fst)
    (hj : j.Logs old (place folder) rotation written) :
    ∃ lines : List String,
      (ss.flatMap (passed folder rotation)).map (·.jsonLine) = lines.map .ok ∧
      (∀ line ∈ lines, ∀ c ∈ line.toList, Visible c) ∧
      (ss.foldl (run folder rotation) j).Logs old (place folder) rotation (written ++ lines) := by
  induction ss generalizing j written with
  | nil => exact ⟨[], rfl, nofun, by rwa [List.append_nil]⟩
  | cons s ss ih =>
    rw [List.forall_mem_cons] at hss
    obtain ⟨first, hfirst, hvisible, hlogs⟩ := run_logs hss.1 h (hj.configure rfl h)
    obtain ⟨more, hmore, hvisibleMore, hlogs⟩ := ih hss.2 hlogs
    refine ⟨first ++ more, ?_, List.forall_mem_append.mpr ⟨hvisible, hvisibleMore⟩, ?_⟩
    · rw [List.flatMap_cons, List.map_append, hfirst, hmore, List.map_append]
    · rwa [List.append_assoc] at hlogs

end Session

open Session

/-- However often the log in a new folder is set up, and whatever is logged then, each record that
passes the level in force has one line, and the files of the log are a trail of these lines. No other
log changes. -/
theorem log_is_trail (folder : String) (rotation : Rotation) {j : Journal} {ss : List Session}
    (hnew : place folder ∉ j.archives.map Prod.fst)
    (hss : ∀ s ∈ ss, ∀ c ∈ s.calls, c.Proper) :
    ∃ (lines : List String) (files : List (Place × String)),
      (ss.flatMap (passed folder rotation)).map (·.jsonLine) = lines.map .ok ∧
      (ss.foldl (run folder rotation) j).files = j.files ++ files ∧
      Trail (place folder) rotation lines files := by
  cases ss with
  | nil => exact ⟨[], [], rfl, (List.append_nil _).symm, trail_nil _ _⟩
  | cons s ss =>
    rw [List.forall_mem_cons] at hss
    have hbegun : (j.configure (s.setup folder rotation)).Logs j.archives (place folder) rotation
        [] := Journal.logs_configure_new rfl hnew
    obtain ⟨first, hfirst, hvisible, hlogs⟩ := run_logs hss.1 hnew hbegun
    obtain ⟨more, hmore, hvisibleMore, a, ha, hholds⟩ := runs_logs hss.2 hnew hlogs
    have hlines : ∀ line ∈ first ++ more, '\n' ∉ line.toList := by
      intro line hline hnewline
      have hvisible := List.forall_mem_append.mpr ⟨hvisible, hvisibleMore⟩ line hline '\n' hnewline
      exact hvisible.ne_newline rfl
    refine ⟨first ++ more, a.files (place folder), ?_, ?_, hholds.trail hlines _⟩
    · rw [List.flatMap_cons, List.map_append, hfirst, hmore, List.map_append]
    · rw [Journal.files, List.foldl_cons, ha, List.flatMap_append, List.flatMap_singleton]
      rfl

def Call.sample (level : Level) (message : String) : Call :=
  ⟨⟨"calcapi.service", level, message, [("a", .string "\n")]⟩, "app.py", 1, "run", .whole 0⟩

theorem Call.sample_proper (level : Level) (message : String) : (Call.sample level message).Proper :=
  ⟨show Journal.owns "calcapi.service" = true by decide, _, ok_of_toOption rfl⟩

/-- The log is set up again with another level, under which the third message does not pass. -/
def raised : List Session :=
  [⟨Level.debug, [.sample Level.debug "a\nb", .sample Level.info "é"]⟩,
    ⟨Level.warning, [.sample Level.info "c", .sample Level.error ""]⟩]

theorem raised_trail :
    place "logs" ∉ Journal.empty.archives.map Prod.fst ∧
    (∀ s ∈ raised, ∀ c ∈ s.calls, c.Proper) ∧
    ∃ (lines : List String) (files : List (Place × String)),
      lines.length = 3 ∧ (raised.foldl (run "logs" ⟨1, 1⟩) Journal.empty).files = files ∧
      Trail (place "logs") ⟨1, 1⟩ lines files := by
  have hnew : place "logs" ∉ Journal.empty.archives.map Prod.fst := List.not_mem_nil
  have hproper : ∀ s ∈ raised, ∀ c ∈ s.calls, c.Proper := by
    simp [raised, Call.sample_proper]
  obtain ⟨lines, files, hlines, hfiles, htrail⟩ := log_is_trail "logs" ⟨1, 1⟩ hnew hproper
  have hpassed : (raised.flatMap (passed "logs" ⟨1, 1⟩)).length = 3 := by decide +kernel
  have hlength := congrArg List.length hlines
  rw [List.length_map, List.length_map, hpassed] at hlength
  exact ⟨hnew, hproper, lines, files, hlength.symm, hfiles, htrail⟩

end Reckoner.Log
