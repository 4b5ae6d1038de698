import NpuDriver.LevelZero.Graph
import Mathlib.Tactic.IntervalCases

/-! The build flags under the options of the environment. -/

namespace NpuDriver

open Library

abbrev CompilerOption := List UInt8 × List UInt8

def blank : UInt8 := 32

/-- A key is a word without quotes and equals signs. -/
def KeyForm (key : List UInt8) : Prop :=
  key ≠ [] ∧ ∀ byte ∈ key, byte ≠ blank ∧ byte ≠ equalsSign ∧ byte ≠ quoteSign

/-- A text consists of `KEY="VALUE"` options, with any blanks around them; a value may have everything but quotes. -/
inductive Spells : List UInt8 → List CompilerOption → Prop where
  | done (count : Nat) : Spells (List.replicate count blank) []
  | option (count : Nat) {key value rest : List UInt8} {options : List CompilerOption} (keyForm : KeyForm key)
      (valueForm : quoteSign ∉ value) (later : Spells rest options) :
      Spells (List.replicate count blank ++ key ++ equalsSign :: quoteSign :: (value ++ quoteSign :: rest))
        ((key, value) :: options)

theorem withoutSpaces_append (first second : List UInt8) :
    withoutSpaces (first ++ second) = withoutSpaces first ++ withoutSpaces second := List.filter_append ..

theorem withoutSpaces_eq_self {text : List UInt8} : withoutSpaces text = text ↔ blank ∉ text := by
  rw [withoutSpaces, List.filter_eq_self]
  constructor
  · intro kept member
    simpa [blank] using kept blank member
  · intro absent byte member
    simp only [decide_eq_true_eq]
    rintro rfl
    exact absent member

theorem withoutSpaces_replicate (count : Nat) : withoutSpaces (List.replicate count blank) = [] := by
  apply List.filter_eq_nil_iff.mpr
  intro byte member
  simp [List.eq_of_mem_replicate member, blank]

theorem KeyForm.withoutSpaces {key : List UInt8} (form : KeyForm key) (count : Nat) :
    NpuDriver.withoutSpaces (List.replicate count blank ++ key) = key := by
  rw [withoutSpaces_append, withoutSpaces_replicate, List.nil_append, withoutSpaces_eq_self]
  intro member
  exact (form.2 blank member).1 rfl

theorem KeyForm.equalsSign {key : List UInt8} (form : KeyForm key) (count : Nat) :
    NpuDriver.equalsSign ∉ List.replicate count blank ++ key := by
  intro member
  rcases List.mem_append.mp member with padding | inside
  · exact absurd (List.eq_of_mem_replicate padding) (by decide)
  · exact (form.2 _ inside).2.1 rfl

theorem findIdx_first {front : List UInt8} {mark : UInt8} (absent : mark ∉ front) (back : List UInt8) :
    (front ++ mark :: back).findIdx? (· == mark) = some front.length := by
  have missing : front.findIdx? (· == mark) = none := by
    rw [List.findIdx?_eq_none_iff]
    intro byte member
    apply beq_false_of_ne
    rintro rfl
    exact absent member
  have found : (mark :: back).findIdx? (· == mark) = some 0 := by
    rw [List.findIdx?_cons, if_pos (beq_self_eq_true mark)]
  rw [List.findIdx?_append, missing, found]
  simp

/-- The first occurrence of a mark cuts a text in one way. -/
theorem cut_unique {mark : UInt8} {front other back rest : List UInt8} (absent : mark ∉ front) (missing : mark ∉ other)
    (same : front ++ mark :: back = other ++ mark :: rest) : front = other ∧ back = rest := by
  have first := findIdx_first absent back
  rw [same, findIdx_first missing] at first
  exact (List.append_inj same (Option.some.inj first).symm).imp_right fun tails => (List.cons.inj tails).2

theorem getKey_spelled {front : List UInt8} (absent : equalsSign ∉ front) (back : List UInt8) :
    getKey (front ++ equalsSign :: back) = (withoutSpaces front, back) := by
  rw [getKey, findIdx_first absent]
  simp

theorem getValue_spelled {value : List UInt8} (absent : quoteSign ∉ value) (rest : List UInt8) :
    getValue (quoteSign :: (value ++ quoteSign :: rest)) = (withoutSpaces value, rest) := by
  have start : (quoteSign :: (value ++ quoteSign :: rest)).findIdx? (· == quoteSign) = some 0 := by
    simp [List.findIdx?_cons]
  rw [getValue, start]
  simp only [Nat.zero_add, List.drop_succ_cons, List.drop_zero]
  rw [findIdx_first absent]
  simp

/-- The driver reads every option, its value without blanks. -/
theorem readOptions_spells {text : List UInt8} {options : List CompilerOption} (spelled : Spells text options) :
    readOptions text = options.map fun option => (option.1, withoutSpaces option.2) := by
  induction spelled with
  | done count =>
    have missing : (List.replicate count blank).findIdx? (· == equalsSign) = none := by
      rw [List.findIdx?_eq_none_iff]
      intro byte member
      rw [List.eq_of_mem_replicate member]
      decide
    rw [readOptions, dif_pos]
    · rfl
    · rw [getKey, missing]
  | option count keyForm valueForm later ih =>
    have key := getKey_spelled (keyForm.equalsSign count)
    rw [readOptions]
    simp only [key, keyForm.withoutSpaces, getValue_spelled valueForm, ih]
    rw [dif_neg keyForm.1]
    rfl

/-- A text spells at most one list of options. -/
theorem Spells.unique {text : List UInt8} {first second : List CompilerOption} (left : Spells text first)
    (right : Spells text second) : first = second := by
  induction left generalizing second with
  | done count =>
    generalize same : List.replicate count blank = text at right
    cases right with
    | done => rfl
    | option other keyForm =>
      have member : equalsSign ∈ List.replicate count blank := by
        rw [same]
        simp
      exact absurd (List.eq_of_mem_replicate member) (by decide)
  | @option count key value rest options keyForm valueForm later ih =>
    generalize same : List.replicate count blank ++ key ++ equalsSign :: quoteSign :: (value ++ quoteSign :: rest) =
      text at right
    cases right with
    | done other =>
      have member : equalsSign ∈ List.replicate other blank := by
        rw [← same]
        simp
      exact absurd (List.eq_of_mem_replicate member) (by decide)
    | @option other key' value' rest' options' keyForm' valueForm' later' =>
      obtain ⟨front, back⟩ := cut_unique (keyForm.equalsSign count) (keyForm'.equalsSign other) same
      have keys : key = key' := by
        rw [← keyForm.withoutSpaces count, front, keyForm'.withoutSpaces]
      obtain ⟨values, rests⟩ := cut_unique valueForm valueForm' (List.cons.inj back).2
      subst keys values rests
      rw [ih later']

/-- A blank in front of the options. -/
theorem Spells.padded {text : List UInt8} {options : List CompilerOption} (spelled : Spells text options) :
    Spells (blank :: text) options := by
  cases spelled with
  | done count => exact .done (count + 1)
  | option count keyForm valueForm later => exact .option (count + 1) keyForm valueForm later

theorem Spells.behind_blank {text : List UInt8} {options : List CompilerOption}
    (spelled : Spells (blank :: text) options) : Spells text options := by
  generalize same : blank :: text = whole at spelled
  cases spelled with
  | done count =>
    cases count with
    | zero => cases same
    | succ count =>
      rw [(List.cons.inj same).2]
      exact .done count
  | option count keyForm valueForm later =>
    cases count with
    | zero =>
      obtain ⟨nonempty, word⟩ := keyForm
      rename_i key _ _ _
      cases key with
      | nil => exact absurd rfl nonempty
      | cons byte key => exact absurd (List.cons.inj same).1.symm (word byte List.mem_cons_self).1
    | succ count =>
      rw [(List.cons.inj same).2]
      exact .option count keyForm valueForm later

/-- The option text that the driver writes, each option with a blank behind it. -/
def renderOptions (options : List CompilerOption) : List UInt8 :=
  options.flatMap fun option => option.1 ++ ascii "=\"" ++ option.2 ++ ascii "\" "

theorem renderOptions_spells {options : List CompilerOption}
    (formed : ∀ option ∈ options, KeyForm option.1 ∧ quoteSign ∉ option.2) :
    Spells (renderOptions options) options := by
  induction options with
  | nil => exact .done 0
  | cons option rest ih =>
    obtain ⟨⟨keyForm, valueForm⟩, others⟩ := List.forall_mem_cons.mp formed
    have text : renderOptions (option :: rest) = List.replicate 0 blank ++ option.1 ++
        equalsSign :: quoteSign :: (option.2 ++ quoteSign :: (blank :: renderOptions rest)) := by
      have assign : ascii "=\"" = [equalsSign, quoteSign] := by decide
      have close : ascii "\" " = [quoteSign, blank] := by decide
      rw [renderOptions, List.flatMap_cons, assign, close]
      simp [renderOptions, assign, close]
    rw [text]
    exact .option 0 keyForm valueForm (ih others).padded

/-- Nothing of a pattern but the whole of it starts like the pattern. -/
def Unbordered (pattern : List UInt8) : Prop :=
  ∀ count < pattern.length, 0 < count → ¬ pattern.drop count <+: pattern

/-- A pattern that is absent in front is found where it is put. -/
theorem findText_append {pattern front : List UInt8} (unbordered : Unbordered pattern)
    (absent : findText pattern front = none) (back : List UInt8) :
    findText pattern (front ++ (pattern ++ back)) = some front.length := by
  induction front with
  | nil =>
    cases pattern with
    | nil => cases absent
    | cons byte rest =>
      rw [List.nil_append, List.cons_append, findText, if_pos]
      · rfl
      · exact ⟨back, rfl⟩
  | cons byte rest ih =>
    rw [findText] at absent
    split at absent
    · cases absent
    · rename_i different
      have later : findText pattern rest = none := by simpa using absent
      rw [List.cons_append, findText, if_neg, ih later]
      · rfl
      · intro early
        have front : byte :: rest <+: byte :: (rest ++ (pattern ++ back)) := ⟨pattern ++ back, rfl⟩
        rcases Nat.lt_or_ge (byte :: rest).length pattern.length with shorter | longer
        · -- The end of the pattern would lie at its own beginning.
          obtain ⟨tail, split_⟩ := List.prefix_of_prefix_length_le front early (Nat.le_of_lt shorter)
          have dropped : pattern.drop (byte :: rest).length = tail := by
            rw [← split_, List.drop_left]
          apply unbordered _ shorter (Nat.succ_pos _)
          rw [dropped]
          have behind : tail <+: pattern ++ back := by
            rw [← List.prefix_append_right_inj (byte :: rest), split_]
            exact early
          exact List.prefix_of_prefix_length_le behind ⟨back, rfl⟩ (by rw [← dropped]; simp)
        · exact different (List.prefix_of_prefix_length_le early front longer)

theorem configOption_unbordered : Unbordered configOption := by
  have length : configOption.length = 8 := by decide
  intro count before positive
  rw [length] at before
  interval_cases count <;> decide

theorem overrideOptions_eq (config env : List UInt8) :
    overrideOptions config env = setEntries (readOptions env) (addEntries (readOptions config) []) := rfl

theorem overrideOptions_distinct (config env : List UInt8) : DistinctKeys (overrideOptions config env) := by
  have empty : DistinctKeys ([] : List CompilerOption) := List.nodup_nil
  rw [overrideOptions_eq]
  exact setEntries_distinct (addEntries_distinct empty _) _

theorem overrideOptions_value {config env : List UInt8} {original named : List CompilerOption}
    (configured : Spells config original) (environment : Spells env named) (key : List UInt8) :
    valueOf (overrideOptions config env) key = (layered original named key).map withoutSpaces := by
  rw [overrideOptions_eq, valueOf_setEntries, readOptions_spells configured, readOptions_spells environment,
    layered_mapValues]

theorem Spells.formed {text : List UInt8} {options : List CompilerOption} (spelled : Spells text options) :
    ∀ option ∈ options, KeyForm option.1 ∧ quoteSign ∉ option.2 := by
  induction spelled with
  | done count => exact nofun
  | option count keyForm valueForm later ih => exact List.forall_mem_cons.mpr ⟨⟨keyForm, valueForm⟩, ih⟩

theorem layered_formed {config env : List UInt8} {original named : List CompilerOption}
    (configured : Spells config original) (environment : Spells env named) {key value : List UInt8}
    (found : layered original named key = some value) : KeyForm key ∧ quoteSign ∉ value := by
  rw [layered, Option.or_eq_some_iff] at found
  rcases found with late | ⟨-, early⟩
  · exact environment.formed (key, value) (List.mem_reverse.mp (mem_of_valueOf late))
  · exact configured.formed (key, value) (mem_of_valueOf early)

/-- The options that the driver writes are well formed. -/
theorem overrideOptions_formed {config env : List UInt8} {original named : List CompilerOption}
    (configured : Spells config original) (environment : Spells env named) :
    ∀ option ∈ overrideOptions config env, KeyForm option.1 ∧ quoteSign ∉ option.2 := by
  intro option member
  have found : valueOf (overrideOptions config env) option.1 = some option.2 :=
    (mem_iff_lookup (overrideOptions_distinct config env)).mp member
  rw [overrideOptions_value configured environment, Option.map_eq_some_iff] at found
  obtain ⟨value, stored, same⟩ := found
  obtain ⟨keyForm, valueForm⟩ := layered_formed configured environment stored
  refine ⟨keyForm, fun quoted => valueForm ?_⟩
  rw [← same] at quoted
  exact List.mem_of_mem_filter quoted

/-- The caller's build flags: a part without `--config`, and behind it possibly a section of options, which a
blank separates from the `--config`. -/
structure FlagsForm (flags front : List UInt8) (config : Option (List UInt8)) (original : List CompilerOption) :
    Prop where
  plain : findText configOption front = none
  whole : flags = front ++ (config.map fun text => configOption ++ text).getD []
  absent : config = none → original = []
  options : ∀ text, config = some text → Spells text original ∧ (text = [] ∨ text.head? = some blank)

/-- The flags are overridden as they should be: what is in front of the section stays, and the section spells the
caller's options with those of the environment in their place, each key once. -/
def Overrides (creation : GraphCreation) (flags front : List UInt8) (original named : List CompilerOption) : Prop :=
  ∃ text options, setUpFlagsFromEnvVariable creation flags = some (front ++ ascii " --config" ++ text) ∧
    Spells text options ∧ DistinctKeys options ∧ ∀ key, valueOf options key = layered original named key

/-- What the driver writes behind the `--config`, unless it throws. -/
theorem setUpFlagsFromEnvVariable_eq {creation : GraphCreation} (override : creation.flagsOverride = true)
    (environment : creation.environment = some env) (form : FlagsForm flags front config original) :
    (config = some [] → setUpFlagsFromEnvVariable creation flags = none) ∧
      (config ≠ some [] → ∃ text, Spells text original ∧
        setUpFlagsFromEnvVariable creation flags = some (front ++ ascii " --config" ++
          (blank :: renderOptions (creation.order.order (overrideOptions text env))))) := by
  obtain ⟨plain, whole, absent, options⟩ := form
  have separated : ascii " --config " = ascii " --config" ++ [blank] := by decide
  have length : configOption.length = 8 := by decide
  rw [setUpFlagsFromEnvVariable]
  simp only [override, environment, Bool.true_eq_false, ↓reduceIte, whole]
  cases config with
  | none =>
    rw [absent rfl]
    refine ⟨fun same => (by cases same), fun _ => ⟨[], .done 0, ?_⟩⟩
    simp [plain, separated, renderOptions]
  | some text =>
    have found := findText_append configOption_unbordered plain text
    obtain ⟨spelled, start⟩ := options text rfl
    simp only [Option.map_some, Option.getD_some, found, List.take_left']
    cases text with
    | nil =>
      refine ⟨fun _ => ?_, fun other => absurd rfl other⟩
      simp [substr, length]
    | cons byte rest =>
      refine ⟨fun same => (by cases same), fun _ => ?_⟩
      have separator : byte = blank := by simpa using start
      subst separator
      refine ⟨rest, spelled.behind_blank, ?_⟩
      have behind : substr (front ++ (configOption ++ blank :: rest)) (front.length + (configOption.length + 1)) =
          some rest := by
        rw [substr, if_pos (by simp)]
        simp
      rw [behind]
      simp [separated, renderOptions]

/-- What the driver wrote, where the flags do not end in `--config`: one text, which spells every option with its
value but without the blanks of the value. -/
theorem written_options {creation : GraphCreation} (override : creation.flagsOverride = true)
    (environment : creation.environment = some env) (spelled : Spells env named)
    (form : FlagsForm flags front config original) (ending : config ≠ some []) :
    ∃ text options, setUpFlagsFromEnvVariable creation flags = some (front ++ ascii " --config" ++ text) ∧
      Spells text options ∧ DistinctKeys options ∧
        ∀ key, valueOf options key = (layered original named key).map withoutSpaces := by
  obtain ⟨text, configured, written⟩ := (setUpFlagsFromEnvVariable_eq override environment form).2 ending
  have distinct := overrideOptions_distinct text env
  have arranged := creation.order.perm (overrideOptions text env)
  refine ⟨_, creation.order.order (overrideOptions text env), written, ?_, distinct.perm arranged, fun key => ?_⟩
  · apply Spells.padded
    apply renderOptions_spells
    exact fun option member => overrideOptions_formed configured spelled option (arranged.mem_iff.mp member)
  · rw [← overrideOptions_value configured spelled]
    exact lookup_perm distinct arranged key

theorem Overrides.plain {creation : GraphCreation} (override : creation.flagsOverride = true)
    (environment : creation.environment = some env) (spelled : Spells env named)
    (form : FlagsForm flags front config original) (overrides : Overrides creation flags front original named) :
    config ≠ some [] ∧ ∀ key value, layered original named key = some value → blank ∉ value := by
  obtain ⟨text, options, success, parsed, -, right⟩ := overrides
  have ending : config ≠ some [] := by
    intro ending
    rw [(setUpFlagsFromEnvVariable_eq override environment form).1 ending] at success
    cases success
  refine ⟨ending, fun key value counts => ?_⟩
  obtain ⟨other, stored, written, rendered, -, values⟩ := written_options override environment spelled form ending
  have same : text = other := by
    rw [written] at success
    exact (List.append_cancel_left (Option.some.inj success)).symm
  subst same
  have kept := right key
  rw [parsed.unique rendered, values, counts] at kept
  exact withoutSpaces_eq_self.mp (Option.some.inj kept)

/-- The flags are overridden as they should be if and only if they do not end in `--config` and no value that
counts has a blank. -/
theorem build_flags_overridden {creation : GraphCreation} (override : creation.flagsOverride = true)
    {env : List UInt8} (environment : creation.environment = some env) {named : List CompilerOption}
    (spelled : Spells env named) {flags front : List UInt8} {config : Option (List UInt8)}
    {original : List CompilerOption} (form : FlagsForm flags front config original) :
    Overrides creation flags front original named ↔
      config ≠ some [] ∧ ∀ key value, layered original named key = some value → blank ∉ value := by
  constructor
  · exact Overrides.plain override environment spelled form
  · rintro ⟨ending, plain⟩
    obtain ⟨text, options, written, rendered, distinct, values⟩ :=
      written_options override environment spelled form ending
    refine ⟨text, options, written, rendered, distinct, fun key => ?_⟩
    rw [values]
    cases counts : layered original named key with
    | none => rfl
    | some value => exact congrArg some (withoutSpaces_eq_self.mpr (plain key value counts))

/-- A creation whose build lets the environment override flags. -/
def overridingCreation (environment : List UInt8) : GraphCreation where
  driverVersion := 0
  flagsOverride := true
  compiler := ⟨true, 7, ⟨[], 7, 0, 0⟩⟩
  hwInfo := ⟨0, 0, 0⟩
  environment := some environment
  order := ⟨id, fun _ => .refl _⟩
  desc := ⟨0, [], none, 0, none⟩

def firstKey : List UInt8 := ascii "A"

def secondKey : List UInt8 := ascii "B"

theorem firstKey_form : KeyForm firstKey := ⟨by decide +kernel, by decide +kernel⟩

theorem secondKey_form : KeyForm secondKey := ⟨by decide +kernel, by decide +kernel⟩

/-- An option after one blank. -/
theorem Spells.single {key : List UInt8} (value : List UInt8) (keyForm : KeyForm key) (valueForm : quoteSign ∉ value) :
    Spells (blank :: (key ++ equalsSign :: quoteSign :: (value ++ [quoteSign]))) [(key, value)] :=
  .option 1 keyForm valueForm (.done 0)

/-- The flags `--in --config B="<value>"`. -/
theorem sampleFlags_form {value : List UInt8} (valueForm : quoteSign ∉ value) :
    FlagsForm (ascii "--in --config B=\"" ++ (value ++ [quoteSign])) (ascii "--in ")
      (some (blank :: (secondKey ++ equalsSign :: quoteSign :: (value ++ [quoteSign])))) [(secondKey, value)] where
  plain := by decide
  whole := by
    have start : ascii "--in --config B=\"" =
        ascii "--in " ++ (configOption ++ (blank :: (secondKey ++ [equalsSign, quoteSign]))) := by decide
    rw [start]
    simp
  absent early := by cases early
  options text same := by
    obtain rfl := Option.some.inj same
    exact ⟨Spells.single value secondKey_form valueForm, .inr rfl⟩

theorem sampleEnvironment_spells : Spells (ascii " A=\"2\"") [(firstKey, ascii "2")] :=
  Spells.single (ascii "2") firstKey_form (by decide)

theorem build_flags_overridden_sample :
    Overrides (overridingCreation (ascii " A=\"2\"")) (ascii "--in --config B=\"x=y\"") (ascii "--in ")
      [(secondKey, ascii "x=y")] [(firstKey, ascii "2")] := by
  have form := @sampleFlags_form (ascii "x=y") (by decide)
  refine (build_flags_overridden rfl rfl sampleEnvironment_spells form).mpr ⟨by decide, fun key value counts => ?_⟩
  have plain : ∀ option ∈ [(secondKey, ascii "x=y"), (firstKey, ascii "2")], blank ∉ option.2 := by decide
  rw [layered, Option.or_eq_some_iff] at counts
  rcases counts with late | ⟨-, early⟩
  · exact plain (key, value) (List.mem_cons_of_mem _ (mem_of_valueOf late))
  · exact plain (key, value) (List.mem_cons.mpr (.inl (List.mem_singleton.mp (mem_of_valueOf early))))

/-- An empty section makes the driver throw, and an option that the environment does not name loses its blanks. -/
theorem build_flags_mangled :
    setUpFlagsFromEnvVariable (overridingCreation (ascii " A=\"2\"")) (ascii "--config") = none ∧
      ¬ Overrides (overridingCreation (ascii " A=\"2\"")) (ascii "--in --config B=\"x y\"") (ascii "--in ")
        [(secondKey, ascii "x y")] [(firstKey, ascii "2")] := by
  have form := @sampleFlags_form (ascii "x y") (by decide)
  constructor
  · decide
  · intro overrides
    have plain := (Overrides.plain rfl rfl sampleEnvironment_spells form overrides).2 secondKey (ascii "x y") (by decide)
    exact plain (by decide)

end NpuDriver
