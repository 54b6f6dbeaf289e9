import Reckoner.Proofs.Text.Integer
import Reckoner.Settings

/-!
What environment variables make of the settings. Each setting depends on its own variables, a number
among them is at least one, and a warning is given for just the variables that could not be used.
-/

namespace Reckoner
open Text

namespace Variables

/-- A variable that is there and not blank denotes a whole number of at least one. -/
def Usable (vars : Variables) (name : String) (n : Int) : Prop :=
  ∃ s, vars.lookup name = some s ∧ ¬Blank s ∧ Denotes s.toList n ∧ 1 ≤ n

/-- A number is taken from a variable that can be used. Otherwise it is the default. -/
def Taken (vars : Variables) (name : String) (default value : Int) : Prop :=
  (∀ n, vars.Usable name n → value = n) ∧ ((∀ n, ¬vars.Usable name n) → value = default)

end Variables

namespace Settings

inductive Field where
  | environment
  | host
  | port
  | logLevel
  | logFolder
  | backend
  | databasePath
  | maxLength
  | maxDepth
deriving DecidableEq

namespace Field

def Same (s t : Settings) : Field → Prop
  | environment => s.environment = t.environment
  | host => s.host = t.host
  | port => s.port = t.port
  | logLevel => s.logLevel = t.logLevel
  | logFolder => s.logFolder = t.logFolder
  | backend => s.backend = t.backend
  | databasePath => s.databasePath = t.databasePath
  | maxLength => s.maxLength = t.maxLength
  | maxDepth => s.maxDepth = t.maxDepth

def name : Field → String
  | environment => "CALCAPI_ENV"
  | host => "CALCAPI_HOST"
  | port => "CALCAPI_PORT"
  | logLevel => "CALCAPI_LOG_LEVEL"
  | logFolder => "CALCAPI_LOG_DIR"
  | backend => "CALCAPI_HISTORY_BACKEND"
  | databasePath => "CALCAPI_DATABASE_PATH"
  | maxLength => "CALCAPI_MAX_EXPRESSION_LENGTH"
  | maxDepth => "CALCAPI_MAX_NESTING_DEPTH"

def sources : Field → List String
  | port => [port.name, "PORT"]
  | f => [f.name]

def consulted (vars : Variables) : Field → String
  | port => vars.portVariable
  | f => f.name

def Accepts : Field → String → Prop
  | environment, s =>
    strip (toLower s) ∈ ["production", "prod", "test", "testing", "development", "dev"]
  | backend, s => strip (toLower s) ∈ ["memory", "sqlite"]
  | port, s | maxLength, s | maxDepth, s => ∃ n, Denotes s.toList n ∧ 1 ≤ n
  | host, _ | logLevel, _ | logFolder, _ | databasePath, _ => True

/-- The consulted variable is there and not blank, and its text cannot be used. -/
def Rejected (vars : Variables) (f : Field) : Prop :=
  ∃ s, vars.lookup (f.consulted vars) = some s ∧ ¬Blank s ∧ ¬f.Accepts s

end Field

def Warning.variable : Warning → String
  | .unknownEnvironment _ => "CALCAPI_ENV"
  | .notAnInteger name _ _ => name
  | .tooSmall name _ _ => name
  | .unknownBackend _ => "CALCAPI_HISTORY_BACKEND"

variable {vars : Variables} {f : Field}

instance (f : Field) (s : String) : Decidable (f.Accepts s) :=
  match f with
  | .environment =>
    inferInstanceAs
      (Decidable (_ ∈ ["production", "prod", "test", "testing", "development", "dev"]))
  | .backend => inferInstanceAs (Decidable (_ ∈ ["memory", "sqlite"]))
  | .port | .maxLength | .maxDepth =>
    decidable_of_iff (∃ n ∈ integer? s, 1 ≤ n)
      (exists_congr fun _ => and_congr_left' integer?_eq_some_iff)
  | .host | .logLevel | .logFolder | .databasePath => .isTrue trivial

instance (vars : Variables) (f : Field) : Decidable (f.Rejected vars) :=
  inferInstanceAs (Decidable (∃ s ∈ vars.lookup (f.consulted vars), ¬Blank s ∧ ¬f.Accepts s))

/-- There is one warning, about the variable that was consulted, if its text was rejected. -/
def Reports (vars : Variables) (f : Field) (ws : List Warning) : Prop :=
  ws.map Warning.variable = ([f].filter (Field.Rejected vars ·)).map (Field.consulted vars)

theorem reports_one {w : Warning} (h : f.Rejected vars) (hw : w.variable = f.consulted vars) :
    Reports vars f [w] := by
  simp [Reports, h, hw]

theorem reports_none (h : ¬f.Rejected vars) : Reports vars f [] := by
  simp [Reports, h]

end Settings

namespace Variables
open Settings

variable {vars : Variables} {name : String} {default : Int}

/-! Numbers. -/

theorem usable_iff {s : String} {n : Int} (h : vars.lookup name = some s) :
    vars.Usable name n ↔ ¬Blank s ∧ Denotes s.toList n ∧ 1 ≤ n := by
  simp [Usable, h]

theorem Usable.unique {m n : Int} (hm : vars.Usable name m) (hn : vars.Usable name n) : m = n := by
  obtain ⟨s, hs, -, hm, -⟩ := hm
  obtain ⟨-, hn, -⟩ := (usable_iff hs).mp hn
  have hread := integer?_of_denotes hm
  rw [integer?_of_denotes hn] at hread
  exact (Option.some_inj.mp hread).symm

inductive Reads (vars : Variables) (name : String) (default : Int) : Int × List Warning → Prop where
  | usable {n : Int} (h : vars.Usable name n) : Reads vars name default (n, [])
  | unset (h : ∀ s, vars.lookup name = some s → Blank s) : Reads vars name default (default, [])
  | unusable {s : String} {w : Warning} (h : vars.lookup name = some s) (hs : ¬Blank s)
    (hn : ¬∃ n, Denotes s.toList n ∧ 1 ≤ n) (hw : w.variable = name) :
    Reads vars name default (default, [w])

theorem reads_positive (vars : Variables) (name : String) (default : Int) :
    vars.Reads name default (vars.positive name default) := by
  -- The variable is absent, blank, no number, too small, or good.
  unfold positive
  split
  · next h =>
    refine .unset fun s hs => ?_
    rw [h] at hs
    cases hs
  next s h =>
  split
  · next hs =>
    rw [String.isEmpty_iff, strip_eq_empty_iff] at hs
    refine .unset fun t ht => ?_
    rw [h] at ht
    cases ht
    exact hs
  next hs =>
  rw [String.isEmpty_iff, strip_eq_empty_iff] at hs
  split
  · next hread =>
    refine .unusable h hs ?_ rfl
    rintro ⟨n, hn, -⟩
    rw [integer?_of_denotes hn] at hread
    cases hread
  next n hread =>
  split
  · next hn =>
    refine .unusable h hs ?_ rfl
    rintro ⟨m, hm, hone⟩
    rw [integer?_of_denotes hm] at hread
    cases hread
    exact absurd hone (Int.not_le.mpr hn)
  · next hn => exact .usable ⟨s, h, hs, denotes_of_integer? hread, Int.not_lt.mp hn⟩

theorem Reads.taken {r : Int × List Warning} (h : vars.Reads name default r) :
    vars.Taken name default r.1 := by
  cases h with
  | usable h => exact ⟨fun n hn => h.unique hn, fun hnone => absurd h (hnone _)⟩
  | unset h =>
    refine ⟨?_, fun _ => rfl⟩
    rintro n ⟨s, hs, hblank, -⟩
    exact absurd (h s hs) hblank
  | unusable h hs hn hw =>
    exact ⟨fun n hread => absurd ⟨n, ((usable_iff h).mp hread).2⟩ hn, fun _ => rfl⟩

theorem Reads.one_le {r : Int × List Warning} (h : vars.Reads name default r)
    (hdefault : 1 ≤ default) : 1 ≤ r.1 := by
  cases h with
  | usable h =>
    obtain ⟨s, -, -, -, hn⟩ := h
    exact hn
  | unset h => exact hdefault
  | unusable h hs hn hw => exact hdefault

theorem Reads.reports {r : Int × List Warning} {f : Field}
    (h : vars.Reads (f.consulted vars) default r)
    (hf : ∀ s, f.Accepts s ↔ ∃ n, Denotes s.toList n ∧ 1 ≤ n) : Reports vars f r.2 := by
  cases h with
  | @usable n h =>
    refine reports_none ?_
    rintro ⟨s, hs, -, hrefused⟩
    exact hrefused ((hf s).mpr ⟨n, ((usable_iff hs).mp h).2⟩)
  | unset h =>
    refine reports_none ?_
    rintro ⟨s, hs, hblank, -⟩
    exact hblank (h s hs)
  | @unusable s w h hs hn hw => exact reports_one ⟨s, h, hs, (hf s).not.mpr hn⟩ hw

/-! Words. -/

theorem word_eq_empty_iff : vars.word name = "" ↔ ∀ s, vars.lookup name = some s → Blank s := by
  rw [word, strip_eq_empty_iff, blank_toLower_iff]
  cases vars.lookup name with
  | none => simp [Blank]
  | some s => simp

theorem rejected_word_iff {f : Field} {words : List String}
    (hf : ∀ s, f.Accepts s ↔ strip (toLower s) ∈ words) :
    f.Rejected vars ↔ vars.word (f.consulted vars) ≠ "" ∧ vars.word (f.consulted vars) ∉ words := by
  rw [Ne, word_eq_empty_iff, word, Field.Rejected]
  cases vars.lookup (f.consulted vars) with
  | none => simp
  | some s => simp [hf]

theorem reports_environment (vars : Variables) : Reports vars .environment vars.environment.2 := by
  have hword := @rejected_word_iff vars .environment _ fun _ => Iff.rfl
  unfold environment
  simp only [Field.consulted, Field.name] at hword
  generalize vars.word "CALCAPI_ENV" = w at hword
  dsimp only
  split
  · next h => exact reports_none (by rcases h with rfl | rfl <;> simp [hword])
  next hproduction =>
  split
  · next h => exact reports_none (by rcases h with rfl | rfl <;> simp [hword])
  next htest =>
  split
  · next h => exact reports_none (by rcases h with rfl | rfl | rfl <;> simp [hword])
  · next h =>
    simp only [not_or] at hproduction htest h
    exact reports_one (by simp [hword, hproduction, htest, h]) rfl

theorem reports_backend (vars : Variables) : Reports vars .backend vars.backend.2 := by
  have hword := @rejected_word_iff vars .backend _ fun _ => Iff.rfl
  unfold backend
  simp only [Field.consulted, Field.name] at hword
  generalize vars.word "CALCAPI_HISTORY_BACKEND" = w at hword
  dsimp only
  split
  · next h => exact reports_none (by rcases h with rfl | rfl <;> simp [hword])
  next hmemory =>
  split
  · next h => exact reports_none (by simp [hword, h])
  · next h =>
    simp only [not_or] at hmemory
    exact reports_one (by simp [hword, hmemory, h]) rfl

end Variables

namespace Settings

variable {vars other : Variables}

theorem variable_warnings (vars : Variables) :
    (ofVariables vars).2.map Warning.variable =
      ([.environment, .port, .backend, .maxLength, .maxDepth].filter (Field.Rejected vars ·)).map
        (Field.consulted vars) := by
  have henvironment := vars.reports_environment
  have hport : Reports vars .port vars.port.2 := (vars.reads_positive _ _).reports fun _ => Iff.rfl
  have hbackend := vars.reports_backend
  have hlength : Reports vars .maxLength vars.maxLength.2 :=
    (vars.reads_positive _ _).reports fun _ => Iff.rfl
  have hdepth : Reports vars .maxDepth vars.maxDepth.2 :=
    (vars.reads_positive _ _).reports fun _ => Iff.rfl
  simp only [Reports] at henvironment hport hbackend hlength hdepth
  rw [ofVariables, List.map_append, List.map_append, List.map_append, List.map_append, henvironment,
    hport, hbackend, hlength, hdepth]
  simp only [← List.map_append, ← List.filter_append]
  rfl

section Congruence

variable {name : String} {default : Int}

theorem positive_congr (h : vars.lookup name = other.lookup name) :
    vars.positive name default = other.positive name default := by
  rw [Variables.positive, Variables.positive, h]

theorem port_congr (h : vars.lookup "CALCAPI_PORT" = other.lookup "CALCAPI_PORT")
    (hcommon : vars.lookup "PORT" = other.lookup "PORT") : vars.port = other.port := by
  rw [Variables.port, Variables.port, Variables.portVariable, Variables.portVariable, h]
  split
  · exact positive_congr h
  · exact positive_congr hcommon

theorem word_congr (h : vars.lookup name = other.lookup name) :
    vars.word name = other.word name := by
  rw [Variables.word, Variables.word, h]

theorem environment_congr (h : vars.lookup "CALCAPI_ENV" = other.lookup "CALCAPI_ENV") :
    vars.environment = other.environment := by
  rw [Variables.environment, Variables.environment, word_congr h]

theorem backend_congr
    (h : vars.lookup "CALCAPI_HISTORY_BACKEND" = other.lookup "CALCAPI_HISTORY_BACKEND") :
    vars.backend = other.backend := by
  rw [Variables.backend, Variables.backend, word_congr h]

theorem logFolder_congr (h : vars.lookup "CALCAPI_LOG_DIR" = other.lookup "CALCAPI_LOG_DIR") :
    vars.logFolder = other.logFolder := by
  rw [Variables.logFolder, Variables.logFolder, h]

theorem same_of_lookup {f : Field} (h : ∀ name ∈ f.sources, vars.lookup name = other.lookup name) :
    f.Same (ofVariables vars).1 (ofVariables other).1 := by
  have hname : vars.lookup f.name = other.lookup f.name := by
    cases f <;> exact h _ List.mem_cons_self
  cases f with
  | environment => simp only [Field.Same, ofVariables, environment_congr hname]
  | port =>
    have hcommon : vars.lookup "PORT" = other.lookup "PORT" := h _ (by simp [Field.sources])
    simp only [Field.Same, ofVariables, port_congr hname hcommon]
  | backend => simp only [Field.Same, ofVariables, backend_congr hname]
  | logFolder => simp only [Field.Same, ofVariables, logFolder_congr hname]
  | maxLength | maxDepth => exact congrArg Prod.fst (positive_congr hname)
  | host | logLevel | databasePath =>
    simp only [Field.name] at hname
    simp only [Field.Same, ofVariables, hname]

end Congruence

theorem infix_append (before middle after : String) :
    middle.toList <:+: (before ++ middle ++ after).toList := by
  rw [String.toList_append, String.toList_append]
  exact List.infix_append _ _ _

theorem variable_infix_message (w : Warning) : w.variable.toList <:+: w.message.toList := by
  suffices h : ∃ before after, w.message = before ++ w.variable ++ after by
    obtain ⟨before, after, h⟩ := h
    rw [h]
    exact infix_append before w.variable after
  cases w with
  | unknownEnvironment value =>
    have hword : "Unknown CALCAPI_ENV value '" = "Unknown " ++ "CALCAPI_ENV" ++ " value '" := by
      decide
    refine ⟨"Unknown ", " value '" ++ (value ++
      "'. Valid values: development, test, production. Defaulting to development."), ?_⟩
    unfold Warning.message
    simp only [hword, Warning.variable, String.append_assoc]
  | notAnInteger name text used =>
    refine ⟨"Invalid integer for ", ": " ++ (quote text ++ (", using " ++ intText used)), ?_⟩
    unfold Warning.message
    simp only [Warning.variable, String.append_assoc]
  | tooSmall name value used =>
    refine ⟨"", " must be >= 1, got " ++ (intText value ++ ("; using " ++ intText used)), ?_⟩
    unfold Warning.message
    simp only [Warning.variable, String.append_assoc, String.empty_append]
  | unknownBackend value =>
    have hword : "Unknown CALCAPI_HISTORY_BACKEND '" =
        "Unknown " ++ "CALCAPI_HISTORY_BACKEND" ++ " '" := by
      decide
    refine ⟨"Unknown ", " '" ++ (value ++ "', using memory"), ?_⟩
    unfold Warning.message
    simp only [hword, Warning.variable, String.append_assoc]

/-- Any variables give settings. The port and the two limits are at least one, and each is the
number that its variable denotes if it can be used, and the default if not; a port of the program's
own goes before the common one, whatever it holds. A field changes only with its own variables.
There is one warning for each variable that was consulted and rejected, in a fixed order, and it
names it. -/
theorem ofVariables_configuration (vars : Variables) :
    ∃ s warnings, ofVariables vars = (s, warnings) ∧
      (1 ≤ s.port ∧ 1 ≤ s.maxLength ∧ 1 ≤ s.maxDepth) ∧
      ((vars.lookup "CALCAPI_PORT").isSome → vars.Taken "CALCAPI_PORT" 3000 s.port) ∧
      (vars.lookup "CALCAPI_PORT" = none → vars.Taken "PORT" 3000 s.port) ∧
      vars.Taken "CALCAPI_MAX_EXPRESSION_LENGTH" 1000 s.maxLength ∧
      vars.Taken "CALCAPI_MAX_NESTING_DEPTH" 100 s.maxDepth ∧
      (∀ (other : Variables) (f : Field),
        (∀ name ∈ f.sources, vars.lookup name = other.lookup name) →
          f.Same s (ofVariables other).1) ∧
      warnings.map Warning.variable =
        ([.environment, .port, .backend, .maxLength, .maxDepth].filter (Field.Rejected vars ·)).map
          (Field.consulted vars) ∧
      ∀ w ∈ warnings, w.variable.toList <:+: w.message.toList := by
  have hport := vars.reads_positive vars.portVariable 3000
  have htaken : vars.Taken vars.portVariable 3000 (ofVariables vars).1.port := hport.taken
  have hlength := vars.reads_positive "CALCAPI_MAX_EXPRESSION_LENGTH" 1000
  have hdepth := vars.reads_positive "CALCAPI_MAX_NESTING_DEPTH" 100
  have hbounds := And.intro (hport.one_le (by decide))
    (And.intro (hlength.one_le (by decide)) (hdepth.one_le (by decide)))
  refine ⟨_, _, rfl, hbounds, ?_, ?_, hlength.taken, hdepth.taken, fun _ _ => same_of_lookup,
    variable_warnings vars, fun w _ => variable_infix_message w⟩
  · intro h
    rwa [Variables.portVariable, if_pos h] at htaken
  · intro h
    have hcommon : vars.portVariable = "PORT" := by rw [Variables.portVariable, h]; rfl
    rwa [hcommon] at htaken

/-- A limit in the digits of another script, next to a port of zero, an unknown backend and a depth
that is no number. The common port is good, and not looked at. -/
theorem arabicLimit_configuration :
    let vars : Variables := [("CALCAPI_ENV", " PROD "), ("CALCAPI_PORT", "0"), ("PORT", "8080"),
      ("CALCAPI_HISTORY_BACKEND", "redis"), ("CALCAPI_MAX_EXPRESSION_LENGTH", " ٥٠_٠ "),
      ("CALCAPI_MAX_NESTING_DEPTH", "ten")]
    ∃ s warnings, ofVariables vars = (s, warnings) ∧ s.port = 3000 ∧ s.maxLength = 500 ∧
      s.maxDepth = 100 ∧ warnings.map Warning.variable =
        ["CALCAPI_PORT", "CALCAPI_HISTORY_BACKEND", "CALCAPI_MAX_NESTING_DEPTH"] := by
  intro vars
  obtain ⟨s, warnings, hs, -, hport, -, hlength, hdepth, -, hwarnings, -⟩ :=
    ofVariables_configuration vars
  have hzero : ∀ n, ¬vars.Usable "CALCAPI_PORT" n := by
    rintro n ⟨t, ht, -, hn, hone⟩
    cases ht
    have hread : integer? "0" = some 0 := by decide +kernel
    rw [integer?_of_denotes hn] at hread
    cases hread
    exact absurd hone (by decide)
  have hlimit : vars.Usable "CALCAPI_MAX_EXPRESSION_LENGTH" 500 :=
    ⟨" ٥٠_٠ ", rfl, by decide +kernel, denotes_of_integer? (by decide +kernel), by decide⟩
  have hword : ∀ n, ¬vars.Usable "CALCAPI_MAX_NESTING_DEPTH" n := by
    rintro n ⟨t, ht, -, hn, -⟩
    cases ht
    have hread : integer? "ten" = none := by decide +kernel
    rw [integer?_of_denotes hn] at hread
    cases hread
  refine ⟨s, warnings, hs, (hport rfl).2 hzero, hlength.1 _ hlimit, hdepth.2 hword, ?_⟩
  rw [hwarnings]
  decide +kernel

end Settings
end Reckoner
