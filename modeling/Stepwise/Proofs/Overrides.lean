import Mathlib.Data.List.DropRight
import Stepwise.Config.Environment
/-!
# Overrides from the environment

Each field of a configuration is overridden by a variable of its own, and kept as it was where the
variable is unset or is no text.  A flag that is set to text other than one of its words is the only
reason to fail, and the flag about records is looked at first.  What the environment overrides it
overrides again to the same.
-/

namespace Stepwise

/-! ## Words for flags -/

/-- The words that a flag may be set to. -/
def flagWords : Bool → List String
  | true => ["1", "true", "yes", "on"]
  | false => ["0", "false", "no", "off"]

/-- A text is a word for the flag, its ASCII letters in any case, between blanks. -/
def MeansFlag (text : String) (flag : Bool) : Prop :=
  ∃ before word after, text.toList = before ++ word ++ after ∧
    (∀ c ∈ before, Text.isBlank c) ∧ (∀ c ∈ after, Text.isBlank c) ∧
    String.ofList (word.map Char.toLower) ∈ flagWords flag

namespace Text

theorem toList_trim (s : String) :
    (trim s).toList = (s.toList.dropWhile isBlank).rdropWhile isBlank :=
  String.toList_ofList

/-- Only blanks are trimmed, at both ends. -/
theorem exists_of_trim (s : String) : ∃ before after,
    s.toList = before ++ (trim s).toList ++ after ∧ (∀ c ∈ before, isBlank c) ∧
      ∀ c ∈ after, isBlank c := by
  refine ⟨s.toList.takeWhile isBlank, (s.toList.dropWhile isBlank).rtakeWhile isBlank, ?_,
    fun c => List.mem_takeWhile_imp, fun c => List.mem_rtakeWhile_imp⟩
  rw [toList_trim, List.append_assoc, List.rdropWhile_append_rtakeWhile,
    List.takeWhile_append_dropWhile]

/-- All blanks around a word are trimmed. -/
theorem trim_of_word {s : String} {before word after : List Char}
    (hs : s.toList = before ++ word ++ after) (hbefore : ∀ c ∈ before, isBlank c)
    (hafter : ∀ c ∈ after, isBlank c) (hword : ∀ c ∈ word, ¬ isBlank c) (hne : word ≠ []) :
    (trim s).toList = word := by
  have hfront : (word ++ after).dropWhile isBlank = word ++ after := by
    rw [List.dropWhile_eq_self_iff]
    intro hlength
    rw [List.getElem_append_left (List.length_pos_iff.2 hne)]
    exact hword _ (List.getElem_mem _)
  have hback : (word ++ after).rdropWhile isBlank = word.rdropWhile isBlank := by
    have hreverse : ∀ c ∈ after.reverse, isBlank c := fun c hc => hafter c (List.mem_reverse.1 hc)
    rw [List.rdropWhile, List.reverse_append, List.dropWhile_append_of_pos hreverse,
      List.rdropWhile]
  rw [toList_trim, hs, List.append_assoc, List.dropWhile_append_of_pos hbefore, hfront, hback,
    List.rdropWhile_eq_self_iff]
  exact fun hne => hword _ (List.getLast_mem hne)

/-- A blank is no letter, so it is the same in lower case. -/
theorem toLower_of_isBlank {c : Char} (hblank : isBlank c) : c.toLower = c := by
  have hletter : ¬ (c.val ≥ 'A'.val ∧ c.val ≤ 'Z'.val) := by
    simp only [isBlank, Char.toNat, Bool.or_eq_true, Bool.and_eq_true, decide_eq_true_eq,
      beq_iff_eq] at hblank
    simp only [ge_iff_le, UInt32.le_iff_toNat_le, Char.reduceVal, UInt32.reduceToNat]
    omega
  exact dif_neg hletter

end Text

/-- The words have no blanks in them. -/
theorem blankless_of_mem_flagWords {word : List Char} {flag : Bool}
    (hword : String.ofList (word.map Char.toLower) ∈ flagWords flag) :
    word ≠ [] ∧ ∀ c ∈ word, ¬ Text.isBlank c := by
  have hwords : ∀ w ∈ flagWords flag, w ≠ "" ∧ ∀ c ∈ w.toList, ¬ Text.isBlank c := by
    cases flag <;> simp [flagWords, Text.isBlank]
  obtain ⟨hne, hblank⟩ := hwords _ hword
  refine ⟨?_, fun c hc hcblank => ?_⟩
  · rintro rfl
    exact hne rfl
  · apply hblank c.toLower
    · rw [String.toList_ofList]
      exact List.mem_map_of_mem hc
    · rwa [Text.toLower_of_isBlank hcblank]

theorem flagOf?_eq_some_iff_mem {text : String} {flag : Bool} :
    flagOf? text = some flag ↔ Text.lower (Text.trim text) ∈ flagWords flag := by
  have hdisjoint : ∀ w ∈ flagWords true, w ∉ flagWords false := by decide
  have hread (word : String) :
      (if (flagWords true).contains word then some true
        else if (flagWords false).contains word then some false else none) = some flag ↔
      word ∈ flagWords flag := by
    simp only [List.contains_iff_mem]
    cases flag with
    | true => split_ifs <;> simp_all
    | false => split_ifs with htrue <;> simp_all
  simp only [flagOf?]
  generalize Text.lower (Text.trim text) = word
  exact hread word

theorem flagOf?_eq_some_iff {text : String} {flag : Bool} :
    flagOf? text = some flag ↔ MeansFlag text flag := by
  constructor
  · intro hflag
    obtain ⟨before, after, htext, hbefore, hafter⟩ := Text.exists_of_trim text
    exact ⟨before, _, after, htext, hbefore, hafter, flagOf?_eq_some_iff_mem.1 hflag⟩
  · rintro ⟨before, word, after, htext, hbefore, hafter, hword⟩
    obtain ⟨hne, hblank⟩ := blankless_of_mem_flagWords hword
    rwa [flagOf?_eq_some_iff_mem, Text.lower, Text.trim_of_word htext hbefore hafter hblank hne]

/-! ## Variables -/

namespace Environment

/-- The variable is set to the bytes of this text. -/
def Sets (env : Environment) (key text : String) : Prop :=
  ∃ name, env.find? (·.1 == key) = some (name, text.toUTF8)

/-- The flag is set to text that means neither truth value. -/
def Garbles (env : Environment) (key text : String) : Prop :=
  env.Sets key text ∧ ∀ flag, ¬ MeansFlag text flag

/-- A field takes what its variable means, and keeps its value if that is not set to text. -/
def Gives {α : Type} (env : Environment) (key : String) (means : String → α → Prop)
    (base value : α) : Prop :=
  (∃ text, env.Sets key text ∧ means text value) ∨ (∀ text, ¬ env.Sets key text) ∧ value = base

variable {env : Environment} {key text : String}

theorem fromUTF8?_eq_some_iff {bytes : ByteArray} :
    String.fromUTF8? bytes = some text ↔ bytes = text.toUTF8 := by
  unfold String.fromUTF8?
  constructor
  · intro htext
    split at htext
    · cases htext
      rfl
    · cases htext
  · rintro rfl
    exact dif_pos text.isValidUTF8

theorem text?_eq_some_iff : env.text? key = some text ↔ env.Sets key text := by
  unfold text? Sets
  cases env.find? (·.1 == key) with
  | none => simp
  | some entry =>
      obtain ⟨name, bytes⟩ := entry
      simp [fromUTF8?_eq_some_iff]

theorem text?_eq_none_iff : env.text? key = none ↔ ∀ text, ¬ env.Sets key text := by
  rw [Option.eq_none_iff_forall_ne_some]
  exact forall_congr' fun text => not_congr text?_eq_some_iff

theorem Sets.unique {other : String} (hset : env.Sets key text) (hother : env.Sets key other) :
    text = other :=
  Option.some.inj ((text?_eq_some_iff.2 hset).symm.trans (text?_eq_some_iff.2 hother))

section Gives

variable {α : Type} {means : String → α → Prop} {base value : α}

theorem gives_of_text? (htext : env.text? key = some text) :
    env.Gives key means base value ↔ means text value := by
  have hset := text?_eq_some_iff.1 htext
  constructor
  · rintro (⟨other, hother, hmeans⟩ | ⟨hunset, -⟩)
    · rwa [hset.unique hother]
    · exact absurd hset (hunset text)
  · exact fun hmeans => .inl ⟨text, hset, hmeans⟩

theorem gives_of_text?_none (htext : env.text? key = none) :
    env.Gives key means base value ↔ value = base := by
  have hunset := text?_eq_none_iff.1 htext
  constructor
  · rintro (⟨text, hset, -⟩ | ⟨-, hvalue⟩)
    · exact absurd hset (hunset text)
    · exact hvalue
  · exact fun hvalue => .inr ⟨hunset, hvalue⟩

/-- What a variable gave, it gives again. -/
theorem Gives.again (gives : env.Gives key means base value) : env.Gives key means value value :=
  gives.imp_right fun ⟨hunset, _⟩ => ⟨hunset, rfl⟩

end Gives

/-- The overrides are refused for a flag, and for the one about records first. -/
def Refuses (env : Environment) (e : ConfigError) : Prop :=
  (∃ text, env.Garbles "FLOWCTL_RECORD_LOOP_RESULTS" text ∧
    e = .invalidValue "FLOWCTL_RECORD_LOOP_RESULTS" text) ∨
  (∀ text, ¬ env.Garbles "FLOWCTL_RECORD_LOOP_RESULTS" text) ∧
    ∃ text, env.Garbles "FLOWCTL_CATCH_PANICS" text ∧ e = .invalidValue "FLOWCTL_CATCH_PANICS" text

/-- The configuration differs from the base in what the variables say, each in its own field. -/
structure Overrides (env : Environment) (base config : Config) : Prop where
  label : env.Gives "FLOWCTL_LABEL" (fun text label => label = some text) base.label config.label
  recording : env.Gives "FLOWCTL_RECORD_LOOP_RESULTS" MeansFlag base.recordLoopResults
    config.recordLoopResults
  catching : env.Gives "FLOWCTL_CATCH_PANICS" MeansFlag base.catchPanics config.catchPanics

theorem Overrides.again {base config : Config} (overrides : env.Overrides base config) :
    env.Overrides config config :=
  ⟨overrides.label.again, overrides.recording.again, overrides.catching.again⟩

end Environment

namespace Config

open Environment

variable {env : Environment} {key : String} {default : Bool}

theorem flagFrom_of_unset (htext : env.text? key = none) :
    flagFrom env key default = .ok default := by
  rw [flagFrom, htext]

theorem flagFrom_of_flag {text : String} {flag : Bool} (htext : env.text? key = some text)
    (hflag : flagOf? text = some flag) : flagFrom env key default = .ok flag := by
  rw [flagFrom, htext]
  simp only [hflag]

theorem flagFrom_of_garbled {text : String} (htext : env.text? key = some text)
    (hflag : flagOf? text = none) :
    flagFrom env key default = .error (.invalidValue key text) := by
  rw [flagFrom, htext]
  simp only [hflag]

theorem garbles_iff {text : String} :
    env.Garbles key text ↔ env.text? key = some text ∧ flagOf? text = none := by
  rw [Garbles, text?_eq_some_iff, Option.eq_none_iff_forall_ne_some]
  simp only [Ne, flagOf?_eq_some_iff]

theorem flagFrom_eq_ok_iff {flag : Bool} :
    flagFrom env key default = .ok flag ↔ env.Gives key MeansFlag default flag := by
  cases htext : env.text? key with
  | none =>
      rw [flagFrom_of_unset htext, gives_of_text?_none htext, Except.ok.injEq, eq_comm]
  | some text =>
      rw [gives_of_text? htext, ← flagOf?_eq_some_iff]
      cases hflag : flagOf? text with
      | none => simp [flagFrom_of_garbled htext hflag]
      | some other => simp [flagFrom_of_flag htext hflag]

theorem flagFrom_eq_error_iff {e : ConfigError} :
    flagFrom env key default = .error e ↔
      ∃ text, env.Garbles key text ∧ e = .invalidValue key text := by
  simp only [garbles_iff]
  cases htext : env.text? key with
  | none => simp [flagFrom_of_unset htext]
  | some text =>
      cases hflag : flagOf? text with
      | none => simp [flagFrom_of_garbled htext hflag, hflag, eq_comm]
      | some flag => simp [flagFrom_of_flag htext hflag, hflag]

theorem override_of_recording_error {base : Config} {e : ConfigError}
    (hrecording : flagFrom env recordKey base.recordLoopResults = .error e) :
    base.override env = .error e := by
  rw [override, hrecording]
  rfl

theorem override_of_recording_ok {base : Config} {recording : Bool}
    (hrecording : flagFrom env recordKey base.recordLoopResults = .ok recording) :
    base.override env = (flagFrom env catchKey base.catchPanics).map fun catching =>
      { label := (env.text? labelKey).or base.label, recordLoopResults := recording,
        catchPanics := catching } := by
  rw [override, hrecording]
  cases flagFrom env catchKey base.catchPanics <;> rfl

theorem gives_label_iff {base label : Option String} :
    env.Gives key (fun text label => label = some text) base label ↔
      label = (env.text? key).or base := by
  cases htext : env.text? key with
  | none => rw [gives_of_text?_none htext, Option.none_or]
  | some text => rw [gives_of_text? htext, Option.some_or]

theorem override_eq_ok_iff {base config : Config} :
    base.override env = .ok config ↔ env.Overrides base config := by
  have hfields : env.Overrides base config ↔ config.label = (env.text? labelKey).or base.label ∧
      flagFrom env recordKey base.recordLoopResults = .ok config.recordLoopResults ∧
      flagFrom env catchKey base.catchPanics = .ok config.catchPanics := by
    rw [← gives_label_iff, flagFrom_eq_ok_iff, flagFrom_eq_ok_iff]
    exact ⟨fun h => ⟨h.label, h.recording, h.catching⟩, fun h => ⟨h.1, h.2.1, h.2.2⟩⟩
  rw [hfields]
  cases hrecording : flagFrom env recordKey base.recordLoopResults with
  | error e => simp [override_of_recording_error hrecording]
  | ok recording =>
      rw [override_of_recording_ok hrecording]
      obtain ⟨label, recordLoopResults, catchPanics⟩ := config
      cases flagFrom env catchKey base.catchPanics with
      | error e => simp [Except.map]
      | ok catching => simp [Except.map, eq_comm]

theorem override_eq_error_iff {base : Config} {e : ConfigError} :
    base.override env = .error e ↔ env.Refuses e := by
  cases hrecording : flagFrom env recordKey base.recordLoopResults with
  | error first =>
      obtain ⟨text, hgarbled, rfl⟩ := flagFrom_eq_error_iff.1 hrecording
      rw [override_of_recording_error hrecording, Except.error.injEq]
      constructor
      · rintro rfl
        exact .inl ⟨text, hgarbled, rfl⟩
      · rintro (⟨other, hother, rfl⟩ | ⟨hnone, -⟩)
        · rw [hgarbled.1.unique hother.1]
          rfl
        · exact absurd hgarbled (hnone text)
  | ok recording =>
      have hnone : ∀ text, ¬ env.Garbles recordKey text := by
        intro text hgarbled
        have herror : flagFrom env recordKey base.recordLoopResults = _ :=
          flagFrom_eq_error_iff.2 ⟨text, hgarbled, rfl⟩
        rw [hrecording] at herror
        cases herror
      have hcatching : env.Refuses e ↔ flagFrom env catchKey base.catchPanics = .error e := by
        rw [flagFrom_eq_error_iff]
        constructor
        · rintro (⟨text, hgarbled, -⟩ | ⟨-, hcatching⟩)
          · exact absurd hgarbled (hnone text)
          · exact hcatching
        · exact fun hcatching => .inr ⟨hnone, hcatching⟩
      rw [override_of_recording_ok hrecording, hcatching]
      cases flagFrom env catchKey base.catchPanics <;> simp [Except.map]

theorem override_again (env : Environment) (base : Config) :
    (base.override env >>= fun config => config.override env) = base.override env := by
  cases hover : base.override env with
  | error e => rfl
  | ok config => exact override_eq_ok_iff.2 (override_eq_ok_iff.1 hover).again

theorem exists_refuses_iff (env : Environment) : (∃ e, env.Refuses e) ↔
    ∃ key ∈ ["FLOWCTL_RECORD_LOOP_RESULTS", "FLOWCTL_CATCH_PANICS"],
      ∃ text, env.Garbles key text := by
  simp only [List.mem_cons, List.not_mem_nil, or_false, exists_eq_or_imp, exists_eq_left]
  constructor
  · rintro ⟨e, ⟨text, hgarbled, -⟩ | ⟨-, text, hgarbled, -⟩⟩
    · exact .inl ⟨text, hgarbled⟩
    · exact .inr ⟨text, hgarbled⟩
  · rintro (⟨text, hgarbled⟩ | ⟨text, hgarbled⟩)
    · exact ⟨_, .inl ⟨text, hgarbled, rfl⟩⟩
    · by_cases hrecording : ∃ other, env.Garbles "FLOWCTL_RECORD_LOOP_RESULTS" other
      · obtain ⟨other, hother⟩ := hrecording
        exact ⟨_, .inl ⟨other, hother, rfl⟩⟩
      · exact ⟨_, .inr ⟨not_exists.1 hrecording, text, hgarbled, rfl⟩⟩

/--
Overriding a configuration is refused exactly for a flag that is set to text without a meaning, and
names the first such flag with its text, whatever the configuration was.  Otherwise each field takes
what its variable means or keeps its value, so overriding twice is overriding once.
-/
theorem overrides_exact (env : Environment) (base other : Config) :
    ((∃ e, base.override env = .error e) ↔
      ∃ key ∈ ["FLOWCTL_RECORD_LOOP_RESULTS", "FLOWCTL_CATCH_PANICS"],
        ∃ text, env.Garbles key text) ∧
    (∀ e, base.override env = .error e ↔ env.Refuses e) ∧
    (∀ e, base.override env = .error e ↔ other.override env = .error e) ∧
    (∀ key text, (ConfigError.invalidValue key text).message =
      "Invalid value for " ++ key ++ ": " ++ text) ∧
    (∀ config, base.override env = .ok config ↔ env.Overrides base config) ∧
    (base.override env >>= fun config => config.override env) = base.override env ∧
    ofEnvironment env =
      override { label := none, recordLoopResults := false, catchPanics := true } env := by
  refine ⟨?_, fun e => override_eq_error_iff, fun e => ?_, fun key text => rfl,
    fun config => override_eq_ok_iff, override_again env base, rfl⟩
  · simp only [override_eq_error_iff, exists_refuses_iff]
  · rw [override_eq_error_iff, override_eq_error_iff]

end Config

end Stepwise
