import Verdiff.Main.Options

/-! The documented command lines, and what the option loop makes of them.

The grammar lists the options in front of the two directories as data. The loop accepts its
language for any reader of thread counts, so that what it accepts beyond the documentation is
exactly what `strtoul` reads beyond a decimal numeral.
-/

set_option autoImplicit false

namespace Verdiff
open Numerals

/-! ## The grammar -/

inductive ThreadFlag where
  | short
  | thread
  | threads
  deriving DecidableEq

def ThreadFlag.word : ThreadFlag → CString
  | .short => cString "-j"
  | .thread => cString "--thread"
  | .threads => cString "--threads"

inductive CommandOption where
  | lines
  | skipUnchanged
  | threads (flag : ThreadFlag) (text : CString)
  | output (path : CString)
  deriving DecidableEq

namespace CommandOption

def words : CommandOption → List CString
  | .lines => [cString "--lines"]
  | .skipUnchanged => [cString "--skip-unchanged"]
  | .threads flag text => [flag.word, text]
  | .output path => [cString "-o", path]

def threadText : CommandOption → Option CString
  | .threads _ text => some text
  | _ => none

def outputPath : CommandOption → Option CString
  | .output path => some path
  | _ => none

end CommandOption

def endingWords : List CString := [cString "--help", cString "-h", cString "--version", cString "-V"]

def optionWords : List CString :=
  endingWords ++ [cString "--lines", cString "--skip-unchanged", cString "-j", cString "--thread",
    cString "--threads", cString "-o"]

section
variable (count : CString → Nat)

/-- The arguments are the words of some options and a rest; no thread count is refused. -/
structure Spelled (options : List CommandOption) (args rest : List CString) : Prop where
  counts : ∀ text ∈ options.filterMap CommandOption.threadText, count text ≠ 0
  spells : args = options.flatMap CommandOption.words ++ rest

def Asks (args : List CString) : Prop :=
  ∃ options word rest, Spelled count options args (word :: rest) ∧ word ∈ endingWords

def Completes (options : List CommandOption) (args : List CString) (rootA rootB : CString) : Prop :=
  Spelled count options args [rootA, rootB] ∧ rootA ∉ optionWords

/-- The last occurrence of an option decides. -/
def commandLine (threadCount : Nat) (options : List CommandOption) (rootA rootB : CString) : CommandLine where
  threadCount := ((options.filterMap CommandOption.threadText).getLast?.map count).getD threadCount
  includeLines := decide (.lines ∈ options)
  includeUnchanged := decide (.skipUnchanged ∉ options)
  outputPath := (options.filterMap CommandOption.outputPath).getLast?.getD defaultReportPath
  rootA := rootA
  rootB := rootB

/-- The outcome the documentation gives to the arguments. -/
def Documented (threadCount : Nat) (args : List CString) : OptionOutcome → Prop
  | .runs line => ∃ options rootA rootB, Completes count options args rootA rootB ∧
      line = commandLine count threadCount options rootA rootB
  | .ends status _ _ => status = 0 ∧ Asks count args ∨
      status = 2 ∧ ¬Asks count args ∧ ¬∃ options rootA rootB, Completes count options args rootA rootB

end

/-! ## The loop, option by option -/

section
variable {version : Bytes} {count : CString → Nat} {options : List CommandOption} {args rest : List CString}
  {state : OptionState}

def applyOption (count : CString → Nat) (state : OptionState) : CommandOption → OptionState
  | .lines => { state with includeLines := true }
  | .skipUnchanged => { state with includeUnchanged := false }
  | .threads _ text => { state with threadCount := count text }
  | .output path => { state with outputPath := some path }

theorem optionLoop_ending (version : Bytes) (count : CString → Nat) {word : CString} (ending : word ∈ endingWords)
    (rest : List CString) (state : OptionState) : ∃ out, optionLoop version count (word :: rest) state = .ends 0 out [] := by
  rw [optionLoop.eq_def]
  simp only [endingWords, List.mem_cons, List.not_mem_nil, or_false] at ending
  rcases ending with rfl | rfl | rfl | rfl
  · exact ⟨_, if_pos (by decide)⟩
  · exact ⟨_, if_pos (by decide)⟩
  · exact ⟨_, (if_neg (by decide)).trans (if_pos (by decide))⟩
  · exact ⟨_, (if_neg (by decide)).trans (if_pos (by decide))⟩

theorem optionLoop_operand {arg : CString} (operand : arg ∉ optionWords) (rest : List CString) (state : OptionState) :
    optionLoop version count (arg :: rest) state = readRoots (arg :: rest) state := by
  rw [optionLoop.eq_def]
  simp only [optionWords, endingWords, List.cons_append, List.nil_append, List.mem_cons, List.not_mem_nil,
    or_false, not_or] at operand
  simp only [strcmp_zero, operand, or_self, ↓reduceIte]

theorem optionLoop_flag_rest (flag : ThreadFlag) (rest : List CString) (state : OptionState) :
    optionLoop version count (flag.word :: rest) state =
      match rest with
      | [] => .ends 2 [] usage
      | text :: rest =>
        if count text = 0 then .ends 2 [] (ascii "invalid thread count\n")
        else optionLoop version count rest { state with threadCount := count text } := by
  rw [optionLoop.eq_def]
  cases rest
  all_goals
    dsimp only
    cases flag <;>
      rw [ThreadFlag.word, if_neg (by decide), if_neg (by decide), if_neg (by decide), if_neg (by decide),
        if_pos (by decide)]

theorem optionLoop_flag (flag : ThreadFlag) (text : CString) (rest : List CString) (state : OptionState) :
    optionLoop version count (flag.word :: text :: rest) state =
      if count text = 0 then .ends 2 [] (ascii "invalid thread count\n")
      else optionLoop version count rest { state with threadCount := count text } :=
  optionLoop_flag_rest flag (text :: rest) state

theorem optionLoop_output_rest (rest : List CString) (state : OptionState) :
    optionLoop version count (cString "-o" :: rest) state =
      match rest with
      | [] => .ends 2 [] usage
      | path :: rest => optionLoop version count rest { state with outputPath := some path } := by
  rw [optionLoop.eq_def]
  cases rest
  all_goals
    dsimp only
    rw [if_neg (by decide), if_neg (by decide), if_neg (by decide), if_neg (by decide), if_neg (by decide),
      if_pos (by decide)]

theorem optionLoop_lacking {word : CString} (lacking : word = cString "-o" ∨ ∃ flag : ThreadFlag, word = flag.word)
    (state : OptionState) : optionLoop version count [word] state = .ends 2 [] usage := by
  rcases lacking with rfl | ⟨flag, rfl⟩
  · exact optionLoop_output_rest [] state
  · exact optionLoop_flag_rest flag [] state

theorem optionLoop_option {option : CommandOption} (accepted : ∀ text, option.threadText = some text → count text ≠ 0)
    (rest : List CString) (state : OptionState) :
    optionLoop version count (option.words ++ rest) state =
      optionLoop version count rest (applyOption count state option) := by
  cases option with
  | lines =>
    change optionLoop version count (cString "--lines" :: rest) state = _
    rw [optionLoop.eq_def]
    dsimp only
    rw [if_neg (by decide), if_neg (by decide), if_pos (by decide), applyOption]
  | skipUnchanged =>
    change optionLoop version count (cString "--skip-unchanged" :: rest) state = _
    rw [optionLoop.eq_def]
    dsimp only
    rw [if_neg (by decide), if_neg (by decide), if_neg (by decide), if_pos (by decide), applyOption]
  | threads flag text =>
    change optionLoop version count (flag.word :: text :: rest) state = _
    rw [optionLoop_flag]
    simp only [accepted text rfl, ↓reduceIte, applyOption]
  | output path =>
    change optionLoop version count (cString "-o" :: path :: rest) state = _
    rw [optionLoop_output_rest, applyOption]

theorem optionLoop_spelled (spelled : Spelled count options args rest) (state : OptionState) :
    optionLoop version count args state =
      optionLoop version count rest (options.foldl (applyOption count) state) := by
  obtain ⟨counts, rfl⟩ := spelled
  induction options generalizing state with
  | nil => rfl
  | cons option options ih =>
    have accepted : ∀ text, option.threadText = some text → count text ≠ 0 := fun text given =>
      counts text (List.mem_filterMap.mpr ⟨option, List.mem_cons_self .., given⟩)
    rw [List.flatMap_cons, List.append_assoc, optionLoop_option accepted, List.foldl_cons]
    refine ih _ fun text member => counts text ?_
    obtain ⟨other, within, given⟩ := List.mem_filterMap.mp member
    exact List.mem_filterMap.mpr ⟨other, List.mem_cons_of_mem _ within, given⟩

theorem foldl_applyOption (options : List CommandOption) (state : OptionState) :
    options.foldl (applyOption count) state =
      ⟨((options.filterMap CommandOption.threadText).getLast?.map count).getD state.threadCount,
        state.includeLines || decide (.lines ∈ options),
        state.includeUnchanged && decide (.skipUnchanged ∉ options),
        (options.filterMap CommandOption.outputPath).getLast?.or state.outputPath⟩ := by
  induction options generalizing state with
  | nil => simp
  | cons option options ih =>
    rw [List.foldl_cons, ih]
    cases option with
    | lines => simp [applyOption, CommandOption.threadText, CommandOption.outputPath]
    | skipUnchanged => simp [applyOption, CommandOption.threadText, CommandOption.outputPath]
    | threads flag text =>
      simp only [applyOption, CommandOption.threadText, CommandOption.outputPath, List.filterMap_cons,
        List.getLast?_cons, List.mem_cons, reduceCtorEq, false_or]
      cases (options.filterMap CommandOption.threadText).getLast? <;> simp
    | output path =>
      simp only [applyOption, CommandOption.threadText, CommandOption.outputPath, List.filterMap_cons,
        List.getLast?_cons, List.mem_cons, reduceCtorEq, false_or]
      cases (options.filterMap CommandOption.outputPath).getLast? <;> simp

theorem readRoots_commandLine (options : List CommandOption) (threadCount : Nat) (rootA rootB : CString) :
    readRoots [rootA, rootB] (options.foldl (applyOption count) (optionInit threadCount)) =
      .runs (commandLine count threadCount options rootA rootB) := by
  rw [foldl_applyOption]
  simp [readRoots, commandLine, optionInit]

/-! ## Where the reading of options stops -/

/-- The arguments start with no option that could be read any further. -/
inductive Stops (count : CString → Nat) : List CString → Prop where
  | empty : Stops count []
  | ending {word : CString} {rest : List CString} : word ∈ endingWords → Stops count (word :: rest)
  | operand {arg : CString} {rest : List CString} : arg ∉ optionWords → Stops count (arg :: rest)
  | lacking {word : CString} : (word = cString "-o" ∨ ∃ flag : ThreadFlag, word = flag.word) → Stops count [word]
  | refused {flag : ThreadFlag} {text : CString} {rest : List CString} : count text = 0 →
      Stops count (flag.word :: text :: rest)

theorem Spelled.cons {option : CommandOption} (accepted : ∀ text, option.threadText = some text → count text ≠ 0)
    (spelled : Spelled count options args rest) : Spelled count (option :: options) (option.words ++ args) rest := by
  refine ⟨fun text member => ?_, ?_⟩
  · obtain ⟨other, within, given⟩ := List.mem_filterMap.mp member
    rcases List.mem_cons.mp within with rfl | later
    · exact accepted text given
    · exact spelled.counts text (List.mem_filterMap.mpr ⟨other, later, given⟩)
  · rw [List.flatMap_cons, List.append_assoc, ← spelled.spells]

theorem word_cases (word : CString) : word ∉ optionWords ∨ word ∈ endingWords ∨ word = cString "--lines" ∨
    word = cString "--skip-unchanged" ∨ (∃ flag : ThreadFlag, word = flag.word) ∨ word = cString "-o" := by
  by_cases option : word ∈ optionWords
  · simp only [optionWords, List.mem_append, List.mem_cons, List.not_mem_nil, or_false] at option
    rcases option with ending | lines | skip | short | thread | threads | output
    · exact .inr (.inl ending)
    · exact .inr (.inr (.inl lines))
    · exact .inr (.inr (.inr (.inl skip)))
    · exact .inr (.inr (.inr (.inr (.inl ⟨.short, short⟩))))
    · exact .inr (.inr (.inr (.inr (.inl ⟨.thread, thread⟩))))
    · exact .inr (.inr (.inr (.inr (.inl ⟨.threads, threads⟩))))
    · exact .inr (.inr (.inr (.inr (.inr output))))
  · exact .inl option

/-- Every argument vector is some options and a rest at which their reading stops. -/
theorem exists_spelled (count : CString → Nat) (args : List CString) :
    ∃ options rest, Spelled count options args rest ∧ Stops count rest := by
  induction length : args.length using Nat.strong_induction_on generalizing args with
  | _ n ih =>
    have here : ∀ {args}, Stops count args → ∃ options rest, Spelled count options args rest ∧ Stops count rest :=
      fun stops => ⟨[], _, ⟨by simp, rfl⟩, stops⟩
    -- An option in front is put before the options of what follows it.
    have behind : ∀ (option : CommandOption) (later : List CString), args = option.words ++ later →
        (∀ text, option.threadText = some text → count text ≠ 0) →
        ∃ options rest, Spelled count options args rest ∧ Stops count rest := by
      intro option later spelling accepted
      have shorter : later.length < n := by
        rw [← length, spelling, List.length_append]
        cases option <;> simp [CommandOption.words]
      obtain ⟨options, rest, spelled, stops⟩ := ih _ shorter later rfl
      exact ⟨option :: options, rest, spelling ▸ spelled.cons accepted, stops⟩
    rcases args with _ | ⟨word, later⟩
    · exact here .empty
    rcases word_cases word with operand | ending | rfl | rfl | ⟨flag, rfl⟩ | rfl
    · exact here (.operand operand)
    · exact here (.ending ending)
    · exact behind .lines later rfl (by simp [CommandOption.threadText])
    · exact behind .skipUnchanged later rfl (by simp [CommandOption.threadText])
    · rcases later with _ | ⟨text, later⟩
      · exact here (.lacking (.inr ⟨flag, rfl⟩))
      by_cases refused : count text = 0
      · exact here (.refused refused)
      · exact behind (.threads flag text) later rfl (by rintro _ ⟨⟩; exact refused)
    · rcases later with _ | ⟨path, later⟩
      · exact here (.lacking (.inl rfl))
      · exact behind (.output path) later rfl (by simp [CommandOption.threadText])

/-! ## The language of the loop -/

theorem optionLoop_asks (version : Bytes) (asks : Asks count args) (state : OptionState) :
    ∃ out, optionLoop version count args state = .ends 0 out [] := by
  obtain ⟨options, word, rest, spelled, ending⟩ := asks
  rw [optionLoop_spelled spelled]
  exact optionLoop_ending version count ending rest _

theorem optionLoop_completes {rootA rootB : CString} (completes : Completes count options args rootA rootB)
    (state : OptionState) : optionLoop version count args state =
      readRoots [rootA, rootB] (options.foldl (applyOption count) state) := by
  rw [optionLoop_spelled completes.1]
  exact optionLoop_operand completes.2 [rootB] _

theorem optionLoop_rejects (version : Bytes) (quiet : ¬Asks count args)
    (incomplete : ¬∃ options rootA rootB, Completes count options args rootA rootB) (state : OptionState) :
    ∃ out err, optionLoop version count args state = .ends 2 out err := by
  obtain ⟨options, rest, spelled, stops⟩ := exists_spelled count args
  rw [optionLoop_spelled spelled]
  cases stops with
  | empty => exact ⟨[], usage, rfl⟩
  | ending word => exact absurd ⟨options, _, _, spelled, word⟩ quiet
  | @operand arg later operand =>
    rw [optionLoop_operand operand]
    rcases later with _ | ⟨rootB, _ | ⟨other, later⟩⟩
    · exact ⟨[], usage, rfl⟩
    · exact absurd ⟨options, arg, rootB, spelled, operand⟩ incomplete
    · exact ⟨[], usage, rfl⟩
  | lacking word => exact ⟨[], usage, optionLoop_lacking word _⟩
  | refused zero => exact ⟨[], _, by rw [optionLoop_flag, if_pos zero]⟩

/-- The loop does what the grammar documents, whatever reads the thread counts. -/
theorem optionLoop_documented (version : Bytes) (count : CString → Nat) (threadCount : Nat) (args : List CString) :
    Documented count threadCount args (optionLoop version count args (optionInit threadCount)) := by
  by_cases asks : Asks count args
  · obtain ⟨out, ended⟩ := optionLoop_asks version asks (optionInit threadCount)
    rw [ended]
    exact .inl ⟨rfl, asks⟩
  · by_cases complete : ∃ options rootA rootB, Completes count options args rootA rootB
    · obtain ⟨options, rootA, rootB, completes⟩ := complete
      rw [optionLoop_completes completes, readRoots_commandLine]
      exact ⟨options, rootA, rootB, completes, rfl⟩
    · obtain ⟨out, err, ended⟩ := optionLoop_rejects version asks complete (optionInit threadCount)
      rw [ended]
      exact .inr ⟨rfl, asks, complete⟩

def OptionOutcome.verdict : OptionOutcome → Nat ⊕ CommandLine
  | .ends status _ _ => .inl status
  | .runs line => .inr line

/-- The grammar gives one outcome to every argument vector. -/
theorem documented_iff (version : Bytes) (count : CString → Nat) (threadCount : Nat) (args : List CString)
    (outcome : OptionOutcome) : Documented count threadCount args outcome ↔
      outcome.verdict = (optionLoop version count args (optionInit threadCount)).verdict := by
  have documented := optionLoop_documented version count threadCount args
  constructor
  · intro claimed
    cases outcome with
    | runs line =>
      obtain ⟨options, rootA, rootB, completes, rfl⟩ := claimed
      rw [optionLoop_completes completes, readRoots_commandLine]
    | ends status out err =>
      rcases claimed with ⟨rfl, asks⟩ | ⟨rfl, quiet, incomplete⟩
      · obtain ⟨_, ended⟩ := optionLoop_asks version asks (optionInit threadCount)
        rw [ended]
        rfl
      · obtain ⟨_, _, ended⟩ := optionLoop_rejects version quiet incomplete (optionInit threadCount)
        rw [ended]
        rfl
  · intro same
    cases looped : optionLoop version count args (optionInit threadCount) with
    | runs line =>
      rw [looped] at same documented
      cases outcome with
      | runs other => cases same; exact documented
      | ends status out err => cases same
    | ends status out err =>
      rw [looped] at same documented
      cases outcome with
      | runs other => cases same
      | ends other out' err' => cases same; exact documented

end

/-! ## Numerals against `strtoul` -/

theorem strtoul_numeral {text : CString} (spelled : numeralCount text ≠ 0) : strtoul text = numeralCount text := by
  unfold numeralCount at spelled ⊢
  split at spelled
  next numeral =>
    simp only [Bool.and_eq_true, decide_eq_true_eq] at numeral
    obtain ⟨digits, word⟩ := numeral
    have all := List.all_eq_true.mp digits
    -- No digit is white space or a sign, so that nothing is skipped.
    have unskipped : strtoulSign (text.bytes.dropWhile isSpace) = (false, text.bytes) := by
      cases bytes : text.bytes with
      | nil => rfl
      | cons byte rest =>
        have digit := all byte (by rw [bytes]; exact List.mem_cons_self ..)
        have bounds : 48 ≤ byte ∧ byte ≤ 57 := by
          by_contra outside
          rw [digitOf, if_neg outside] at digit
          cases digit
        have notSpace : isSpace byte = false := by
          simp only [isSpace, decide_eq_false_iff_not, not_or, not_and, UInt8.not_le]
          refine ⟨?_, fun _ => UInt8.lt_of_lt_of_le (show (13 : UInt8) < 48 by decide) bounds.1⟩
          rintro rfl
          exact absurd bounds.1 (by decide)
        have notMinus : byte ≠ 45 := by rintro rfl; exact absurd bounds.1 (by decide)
        have notPlus : byte ≠ 43 := by rintro rfl; exact absurd bounds.1 (by decide)
        rw [List.dropWhile_cons_of_neg (by simp [notSpace]), strtoulSign, if_neg notMinus, if_neg notPlus]
    have read : text.bytes.takeWhile (fun byte => (digitOf byte).isSome) = text.bytes :=
      List.takeWhile_eq_self_iff.mpr all
    rw [if_pos (by simp [digits, word])]
    simp only [strtoul, unskipped, read, Nat.not_le.mpr word, ↓reduceIte, Bool.false_eq_true]
  next => exact absurd rfl spelled

theorem Spelled.strtoul {options : List CommandOption} {args rest : List CString}
    (spelled : Spelled numeralCount options args rest) : Spelled Verdiff.strtoul options args rest where
  counts text member := by
    have numeral := spelled.counts text member
    rw [strtoul_numeral numeral]
    exact numeral
  spells := spelled.spells

theorem foldl_applyOption_strtoul {options : List CommandOption} {args rest : List CString}
    (spelled : Spelled numeralCount options args rest) (state : OptionState) :
    options.foldl (applyOption strtoul) state = options.foldl (applyOption numeralCount) state := by
  have same : ∀ text, (options.filterMap CommandOption.threadText).getLast? = some text →
      strtoul text = numeralCount text := fun text last =>
    strtoul_numeral (spelled.counts text (List.mem_of_getLast? last))
  rw [foldl_applyOption, foldl_applyOption]
  cases last : (options.filterMap CommandOption.threadText).getLast? with
  | none => rfl
  | some text => simp [same text last]

/-- Behind documented options a thread option has an argument that `strtoul` takes although it
is no numeral from 1 to `SIZE_MAX`, and what follows would not be rejected anyway. -/
def Misread (args : List CString) : Prop :=
  ∃ options flag text rest, Spelled numeralCount options args (ThreadFlag.word flag :: text :: rest) ∧
    numeralCount text = 0 ∧ strtoul text ≠ 0 ∧
    (Asks strtoul rest ∨ ∃ options rootA rootB, Completes strtoul options rest rootA rootB)

theorem optionLoop_misread {version : Bytes} {args : List CString} (misread : Misread args) (state : OptionState) :
    (optionLoop version strtoul args state).verdict ≠ (optionLoop version numeralCount args state).verdict := by
  obtain ⟨options, flag, text, rest, spelled, refused, taken, goesOn⟩ := misread
  rw [optionLoop_spelled spelled, optionLoop_spelled spelled.strtoul, optionLoop_flag, optionLoop_flag,
    if_pos refused, if_neg taken]
  rcases goesOn with asks | ⟨later, rootA, rootB, completes⟩
  · obtain ⟨out, ended⟩ := optionLoop_asks version asks _
    rw [ended]
    simp [OptionOutcome.verdict]
  · rw [optionLoop_completes completes]
    simp [readRoots, OptionOutcome.verdict]

theorem optionLoop_read {version : Bytes} {args : List CString} (read : ¬Misread args) (state : OptionState) :
    (optionLoop version strtoul args state).verdict = (optionLoop version numeralCount args state).verdict := by
  obtain ⟨options, rest, spelled, stops⟩ := exists_spelled numeralCount args
  rw [optionLoop_spelled spelled, optionLoop_spelled spelled.strtoul, foldl_applyOption_strtoul spelled]
  cases stops with
  | empty => rfl
  | ending word =>
    obtain ⟨_, ended⟩ := optionLoop_ending version strtoul word _ _
    obtain ⟨_, ended'⟩ := optionLoop_ending version numeralCount word _ _
    rw [ended, ended']
    rfl
  | operand arg => rw [optionLoop_operand arg, optionLoop_operand arg]
  | lacking word => rw [optionLoop_lacking word, optionLoop_lacking word]
  | @refused flag text rest zero =>
    rw [optionLoop_flag, optionLoop_flag, if_pos zero]
    by_cases taken : strtoul text = 0
    · rw [if_pos taken]
    · rw [if_neg taken]
      have quiet : ¬Asks strtoul rest := fun asks => read ⟨options, flag, text, rest, spelled, zero, taken, .inl asks⟩
      have incomplete : ¬∃ options rootA rootB, Completes strtoul options rest rootA rootB := fun completes =>
        read ⟨options, flag, text, rest, spelled, zero, taken, .inr completes⟩
      obtain ⟨_, _, ended⟩ := optionLoop_rejects version quiet incomplete _
      rw [ended]
      rfl

/-- `main` keeps to the documented command lines exactly where `strtoul` takes nothing for a
thread count that is no numeral. -/
theorem main_options_documented (version : Bytes) (online : Int) (args : List CString) :
    Documented numeralCount (defaultThreadCount online) args (mainOptions version online args) ↔ ¬Misread args := by
  rw [documented_iff version, mainOptions]
  exact ⟨fun same misread => optionLoop_misread misread _ same, fun read => optionLoop_read read _⟩

/-- A number with letters behind it is taken for the number. -/
theorem main_options_documented_trailing :
    ¬Documented numeralCount (defaultThreadCount 8) [cString "-j", cString "4abc", cString "A", cString "B"]
      (mainOptions (ascii "0.1.0") 8 [cString "-j", cString "4abc", cString "A", cString "B"]) := by
  rw [documented_iff (ascii "0.1.0")]
  decide +kernel

theorem mainOptions_threads_pos {version : Bytes} {online : Int} {args : List CString} {line : CommandLine}
    (accepted : mainOptions version online args = .runs line) : 0 < line.threadCount := by
  have documented := optionLoop_documented version strtoul (defaultThreadCount online) args
  change Documented strtoul _ args (mainOptions version online args) at documented
  rw [accepted] at documented
  obtain ⟨options, rootA, rootB, ⟨spelled, _⟩, rfl⟩ := documented
  have default_pos : 0 < defaultThreadCount online := by
    unfold defaultThreadCount
    split
    · decide
    · omega
  simp only [commandLine]
  cases last : (options.filterMap CommandOption.threadText).getLast? with
  | none => exact default_pos
  | some text => exact Nat.pos_of_ne_zero (spelled.counts text (List.mem_of_getLast? last))

/-- What the loop lets through is what the rest of `main` can be run with. -/
theorem mainOptions_supplies {version : Bytes} {online : Int} {args : List CString} {line : CommandLine}
    (accepted : mainOptions version online args = .runs line) : ∃ options : MainOptions,
      line = ⟨options.threadCount, options.includeLines, options.includeUnchanged, line.outputPath,
        options.rootA, options.rootB⟩ :=
  ⟨⟨line.rootA, line.rootB, line.threadCount, mainOptions_threads_pos accepted, line.includeLines,
    line.includeUnchanged⟩, rfl⟩

end Verdiff
