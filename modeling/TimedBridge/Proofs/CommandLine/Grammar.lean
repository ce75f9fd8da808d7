import Mathlib.Data.List.Induction
import TimedBridge.CommandLine

/-!
The grammar of the arguments behind `run`. They are pieces in any order: the option for the output
format, the option for the log filter with its value, and the file, which begins like no option. Any
arguments are pieces with at most one file or have a first fault behind such pieces (`layout`), and
reading takes piece after piece (`readBehind_words`). So it accepts exactly the pieces with one file,
whatever their order, and else reports the first fault (`grammatical_runArgs`).
-/

namespace TimedBridge.CommandLine

/-! ### Pieces -/

/-- The argument begins like an option. -/
def Dashed (arg : String) : Prop := arg.toList.head? = some '-'

instance (arg : String) : Decidable (Dashed arg) := inferInstanceAs (Decidable (_ = _))

/-- The spellings of the option for the log filter. -/
inductive FilterFlag where
  | short
  | long
  deriving DecidableEq, Repr

/-- The text of the option for the log filter. -/
def FilterFlag.text : FilterFlag → String
  | short => "-l"
  | long => "--log-level"

/-- A piece of the arguments. -/
inductive Piece where
  | json
  /-- The option for the log filter with its value, which may be any text. -/
  | filter (flag : FilterFlag) (level : String)
  | file (path : String) (plain : ¬ Dashed path)
  deriving DecidableEq

/-- The arguments that make up a piece. -/
def Piece.words : Piece → List String
  | json => ["--json"]
  | filter flag level => [flag.text, level]
  | file path _ => [path]

/-- The arguments that make up pieces. -/
def words (pieces : List Piece) : List String := pieces.flatMap Piece.words

/-- The files among pieces. -/
def files (pieces : List Piece) : List String :=
  pieces.filterMap fun
    | .file path _ => some path
    | _ => none

/-- The values of the log filter among pieces. -/
def levels (pieces : List Piece) : List String :=
  pieces.filterMap fun
    | .filter _ level => some level
    | _ => none

/-- An argument that is faulty between the files `given` before it and the arguments `rest` behind it. -/
inductive Faulty (given : List String) : String → List String → UsageFault → Prop
  | help {arg : String} (rest : List String) (h : arg = "--help" ∨ arg = "-h") :
      Faulty given arg rest .help
  /-- The option for the log filter stands last. -/
  | missingLogLevel (flag : FilterFlag) : Faulty given flag.text [] .missingLogLevel
  | unknownOption {arg : String} (rest : List String) (hdashed : Dashed arg)
      (hunknown : arg ∉ ["--help", "-h", "--json", "-l", "--log-level"]) :
      Faulty given arg rest (.unknownOption arg)
  /-- There is a file before it. -/
  | multipleScenarios {arg : String} (rest : List String) (hplain : ¬ Dashed arg)
      (hgiven : given ≠ []) : Faulty given arg rest .multipleScenarios

variable {before pieces : List Piece} {piece : Piece} {arg : String} {rest : List String}
  {fault : UsageFault}

/-! ### Layouts -/

/-- Arguments as pieces with at most one file, and what is faulty behind them. -/
inductive Layout : List String → Prop
  | pieces (pieces : List Piece) (hfiles : (files pieces).length ≤ 1) : Layout (words pieces)
  | faulty (pieces : List Piece) (hfiles : (files pieces).length ≤ 1) {arg : String}
      {rest : List String} {fault : UsageFault} (hfault : Faulty (files pieces) arg rest fault) :
      Layout (words pieces ++ arg :: rest)

/-- An argument is one of the options or an unknown one, or it is a file. -/
theorem argument_cases (arg : String) :
    (arg = "--help" ∨ arg = "-h") ∨ arg = "--json" ∨ (∃ flag : FilterFlag, arg = flag.text) ∨
      (Dashed arg ∧ arg ∉ ["--help", "-h", "--json", "-l", "--log-level"]) ∨ ¬ Dashed arg := by
  by_cases hoption : arg ∈ ["--help", "-h", "--json", "-l", "--log-level"]
  · simp only [List.mem_cons, List.not_mem_nil, or_false] at hoption
    rcases hoption with h | h | h | h | h
    · exact .inl (.inl h)
    · exact .inl (.inr h)
    · exact .inr (.inl h)
    · exact .inr (.inr (.inl ⟨.short, h⟩))
    · exact .inr (.inr (.inl ⟨.long, h⟩))
  · by_cases hdashed : Dashed arg
    · exact .inr (.inr (.inr (.inl ⟨hdashed, hoption⟩)))
    · exact .inr (.inr (.inr (.inr hdashed)))

theorem words_concat (before : List Piece) (piece : Piece) :
    words (before ++ [piece]) = words before ++ piece.words := by
  simp [words]

theorem files_concat (before : List Piece) (piece : Piece) :
    files (before ++ [piece]) = files before ++ files [piece] :=
  List.filterMap_append

theorem Layout.behind (h : Layout (words (before ++ [piece]) ++ rest)) :
    Layout (words before ++ (piece.words ++ rest)) := by
  rwa [words_concat, List.append_assoc] at h

/-- Behind pieces, arguments go on with pieces until one is faulty. -/
theorem layout_append (before : List Piece) (hfiles : (files before).length ≤ 1) :
    (args : List String) → Layout (words before ++ args)
  | [] => (List.append_nil (words before)).symm ▸ .pieces before hfiles
  | arg :: rest => by
    have hother (piece : Piece) (hnone : files [piece] = []) :
        (files (before ++ [piece])).length ≤ 1 := by
      rwa [files_concat, hnone, List.append_nil]
    rcases argument_cases arg with hhelp | rfl | ⟨flag, rfl⟩ | ⟨hdashed, hunknown⟩ | hplain
    · exact .faulty before hfiles (.help rest hhelp)
    · exact (layout_append (before ++ [.json]) (hother _ rfl) rest).behind
    · -- the option for the log filter takes the next argument with it, whatever that is
      cases rest with
      | nil => exact .faulty before hfiles (.missingLogLevel flag)
      | cons level rest =>
        exact (layout_append (before ++ [.filter flag level]) (hother _ rfl) rest).behind
    · exact .faulty before hfiles (.unknownOption rest hdashed hunknown)
    · by_cases hgiven : files before = []
      · have hfirst : (files (before ++ [.file arg hplain])).length ≤ 1 := by
          rw [files_concat, hgiven]
          exact Nat.le_refl 1
        exact (layout_append (before ++ [.file arg hplain]) hfirst rest).behind
      · exact .faulty before hfiles (.multipleScenarios rest hplain hgiven)
  termination_by args => args.length

theorem layout (args : List String) : Layout args := layout_append [] (Nat.zero_le 1) args

/-! ### Reading -/

/-- What reading the arguments behind pieces comes to. -/
def readBehind (before : List Piece) (args : List String) : Except UsageFault RunArgs :=
  readRunArgs (files before).head? (levels before).getLast? (decide (.json ∈ before)) args

theorem argumentOf_flag (flag : FilterFlag) : Argument.of flag.text = .logLevel := by
  cases flag <;> decide

theorem argumentOf_plain (hplain : ¬ Dashed arg) : Argument.of arg = .operand := by
  have hne (option : String) (hoption : Dashed option) : arg ≠ option := fun heq =>
    hplain (heq ▸ hoption)
  rw [Argument.of, if_neg, if_neg (hne _ (by decide)), if_neg]
  · exact if_neg hplain
  · exact not_or.2 ⟨hne _ (by decide), hne _ (by decide)⟩
  · exact not_or.2 ⟨hne _ (by decide), hne _ (by decide)⟩

theorem argumentOf_unknown (hdashed : Dashed arg)
    (hunknown : arg ∉ ["--help", "-h", "--json", "-l", "--log-level"]) :
    Argument.of arg = .unknown := by
  simp only [List.mem_cons, List.not_mem_nil, or_false, not_or] at hunknown
  obtain ⟨hhelp, hh, hjson, hl, hlevel⟩ := hunknown
  rw [Argument.of, if_neg (not_or.2 ⟨hhelp, hh⟩), if_neg hjson, if_neg (not_or.2 ⟨hl, hlevel⟩)]
  exact if_pos hdashed

/-- Reading takes a piece at a time. -/
theorem readBehind_piece (hfiles : (files (before ++ [piece])).length ≤ 1) (rest : List String) :
    readBehind before (piece.words ++ rest) = readBehind (before ++ [piece]) rest := by
  cases piece with
  | json =>
    rw [readBehind, Piece.words, List.singleton_append, readRunArgs.eq_def]
    simp [readBehind, Argument.of, files, levels]
  | filter flag level =>
    rw [readBehind, Piece.words, List.cons_append, List.singleton_append, readRunArgs.eq_def]
    simp [readBehind, argumentOf_flag, files, levels]
  | file path plain =>
    have hnone : files before = [] := by
      rw [files_concat, List.length_append] at hfiles
      exact List.length_eq_zero_iff.1 (Nat.le_zero.1 (Nat.le_of_add_le_add_right hfiles))
    have hfirst : files (before ++ [.file path plain]) = [path] := by
      rw [files_concat, hnone]
      rfl
    rw [readBehind, Piece.words, List.singleton_append, readRunArgs.eq_def, hnone]
    simp [readBehind, argumentOf_plain plain, hfirst, levels]

/-- Reading takes all pieces, with whatever stands behind them. -/
theorem readBehind_words (hfiles : (files (before ++ pieces)).length ≤ 1) (rest : List String) :
    readBehind before (words pieces ++ rest) = readBehind (before ++ pieces) rest := by
  induction pieces generalizing before with
  | nil => rw [List.append_nil]; rfl
  | cons piece pieces ih =>
    have hsplit : before ++ piece :: pieces = before ++ [piece] ++ pieces := by simp
    have hfirst : (files (before ++ [piece])).length ≤ 1 := by
      rw [hsplit, files, List.filterMap_append, List.length_append] at hfiles
      exact Nat.le_of_add_right_le hfiles
    rw [hsplit] at hfiles ⊢
    rw [← ih hfiles, ← readBehind_piece hfirst, words, List.flatMap_cons, List.append_assoc]
    rfl

theorem runArgs_words (hfiles : (files pieces).length ≤ 1) (rest : List String) :
    runArgs (words pieces ++ rest) = readBehind pieces rest :=
  readBehind_words (show (files ([] ++ pieces)).length ≤ 1 from hfiles) rest

/-- Reading stops at what is faulty. -/
theorem readBehind_faulty (hfault : Faulty (files before) arg rest fault) :
    readBehind before (arg :: rest) = .error fault := by
  rw [readBehind, readRunArgs.eq_def]
  dsimp only
  cases hfault with
  | help rest h => rw [show Argument.of arg = .help from if_pos h]
  | missingLogLevel flag => rw [argumentOf_flag]
  | unknownOption rest hdashed hunknown => rw [argumentOf_unknown hdashed hunknown]
  | multipleScenarios rest hplain hgiven =>
    rw [argumentOf_plain hplain]
    exact if_pos (List.isSome_head?.2 hgiven)

/-- Pieces with one file are accepted. -/
theorem runArgs_of_file {path : String} (hfile : files pieces = [path]) :
    runArgs (words pieces) = .ok ⟨path, (levels pieces).getLast?, decide (.json ∈ pieces)⟩ := by
  rw [← List.append_nil (words pieces), runArgs_words (by rw [hfile]; exact Nat.le_refl 1), readBehind,
    hfile]
  rfl

/-- Pieces without a file are refused for that. -/
theorem runArgs_of_no_file (hfile : files pieces = []) :
    runArgs (words pieces) = .error .missingScenario := by
  rw [← List.append_nil (words pieces), runArgs_words (by rw [hfile]; exact Nat.zero_le 1), readBehind,
    hfile]
  rfl

/-- Among pieces with several files there is a second one. -/
theorem exists_second (h : 1 < (files pieces).length) :
    ∃ before path plain later, pieces = before ++ .file path plain :: later ∧
      (files before).length = 1 := by
  induction pieces using List.reverseRecOn with
  | nil => contradiction
  | append_singleton pieces piece ih =>
    by_cases hearlier : 1 < (files pieces).length
    · obtain ⟨before, path, plain, later, rfl, hone⟩ := ih hearlier
      exact ⟨before, path, plain, later ++ [piece], by simp, hone⟩
    · rw [files_concat, List.length_append] at h
      cases piece with
      | json => exact absurd h hearlier
      | filter flag level => exact absurd h hearlier
      | file path plain =>
        have hlast : (files [.file path plain]).length = 1 := rfl
        exact ⟨pieces, path, plain, [], rfl, by omega⟩

/-- Pieces with several files are refused for that. -/
theorem runArgs_of_files (h : 1 < (files pieces).length) :
    runArgs (words pieces) = .error .multipleScenarios := by
  obtain ⟨before, path, plain, later, rfl, hone⟩ := exists_second h
  have hwords : words (before ++ .file path plain :: later) = words before ++ path :: words later := by
    simp [words, Piece.words]
  have hgiven : files before ≠ [] := List.ne_nil_of_length_pos (by omega)
  rw [hwords, runArgs_words (Nat.le_of_eq hone)]
  exact readBehind_faulty (.multipleScenarios (words later) plain hgiven)

/-! ### The grammar -/

/-- The first fault of arguments: behind pieces without a fault an argument is faulty, or there are only
pieces and none of them is a file. -/
inductive FirstFault : List String → UsageFault → Prop
  | faulty (pieces : List Piece) (hfiles : (files pieces).length ≤ 1) {arg : String}
      {rest : List String} {fault : UsageFault} (hfault : Faulty (files pieces) arg rest fault) :
      FirstFault (words pieces ++ arg :: rest) fault
  | missingScenario (pieces : List Piece) (hfiles : files pieces = []) :
      FirstFault (words pieces) .missingScenario

/-- A way of reading the arguments behind `run` that accepts exactly what the grammar allows. -/
structure Grammatical (reads : List String → Except UsageFault RunArgs) : Prop where
  /-- Pieces with one file are accepted, and nothing else. -/
  ok_iff : ∀ args read, reads args = .ok read ↔ ∃ pieces, words pieces = args ∧
    files pieces = [read.scenario] ∧ (levels pieces).getLast? = read.logLevel ∧
    (.json ∈ pieces ↔ read.json = true)
  /-- The order of the pieces does not matter, but for that of the log filters. -/
  reordered : ∀ pieces pieces' : List Piece, pieces.Perm pieces' → levels pieces = levels pieces' →
    reads (words pieces) = reads (words pieces')
  /-- What is reported is the first fault. -/
  error_iff : ∀ args fault, reads args = .error fault ↔ FirstFault args fault

theorem runArgs_eq_ok_iff (args : List String) (read : RunArgs) :
    runArgs args = .ok read ↔ ∃ pieces, words pieces = args ∧ files pieces = [read.scenario] ∧
      (levels pieces).getLast? = read.logLevel ∧ (.json ∈ pieces ↔ read.json = true) := by
  constructor
  · intro hread
    cases layout args with
    | pieces pieces hfiles =>
      rcases Nat.le_one_iff_eq_zero_or_eq_one.1 hfiles with hnone | hone
      · rw [runArgs_of_no_file (List.length_eq_zero_iff.1 hnone)] at hread
        contradiction
      · obtain ⟨path, hfile⟩ := List.length_eq_one_iff.1 hone
        rw [runArgs_of_file hfile] at hread
        cases hread
        exact ⟨pieces, rfl, hfile, rfl, decide_eq_true_iff.symm⟩
    | faulty pieces hfiles hfault =>
      rw [runArgs_words hfiles, readBehind_faulty hfault] at hread
      contradiction
  · rintro ⟨pieces, rfl, hfile, hlevel, hjson⟩
    have hflag : decide (.json ∈ pieces) = read.json := Bool.eq_iff_iff.2 (decide_eq_true_iff.trans hjson)
    rw [runArgs_of_file hfile, hlevel, hflag]

theorem runArgs_perm {pieces' : List Piece} (hperm : pieces.Perm pieces')
    (hlevels : levels pieces = levels pieces') : runArgs (words pieces) = runArgs (words pieces') := by
  have hfiles : (files pieces).Perm (files pieces') := hperm.filterMap _
  rcases Nat.lt_trichotomy (files pieces).length 1 with hnone | hone | hseveral
  · have hnil : files pieces = [] := List.length_eq_zero_iff.1 (Nat.lt_one_iff.1 hnone)
    rw [runArgs_of_no_file hnil, runArgs_of_no_file (hnil ▸ hfiles).nil_eq.symm]
  · obtain ⟨path, hfile⟩ := List.length_eq_one_iff.1 hone
    have hfile' : files pieces' = [path] := (List.perm_singleton.1 (hfile ▸ hfiles.symm))
    rw [runArgs_of_file hfile, runArgs_of_file hfile', hlevels, decide_eq_decide.2 hperm.mem_iff]
  · rw [runArgs_of_files hseveral, runArgs_of_files (hfiles.length_eq ▸ hseveral)]

theorem runArgs_eq_error_iff (args : List String) (fault : UsageFault) :
    runArgs args = .error fault ↔ FirstFault args fault := by
  constructor
  · intro hread
    cases layout args with
    | pieces pieces hfiles =>
      rcases Nat.le_one_iff_eq_zero_or_eq_one.1 hfiles with hnone | hone
      · have hfile := List.length_eq_zero_iff.1 hnone
        rw [runArgs_of_no_file hfile] at hread
        cases hread
        exact .missingScenario pieces hfile
      · obtain ⟨path, hfile⟩ := List.length_eq_one_iff.1 hone
        rw [runArgs_of_file hfile] at hread
        contradiction
    | faulty pieces hfiles hfault =>
      rw [runArgs_words hfiles, readBehind_faulty hfault] at hread
      cases hread
      exact .faulty pieces hfiles hfault
  · intro hfirst
    cases hfirst with
    | faulty pieces hfiles hfault => rw [runArgs_words hfiles, readBehind_faulty hfault]
    | missingScenario pieces hfile => exact runArgs_of_no_file hfile

/-- The arguments behind `run` are read by their grammar. -/
theorem grammatical_runArgs : Grammatical runArgs where
  ok_iff := runArgs_eq_ok_iff
  reordered _ _ := runArgs_perm
  error_iff := runArgs_eq_error_iff

/-- What stands behind the option for the log filter is its value, whatever it looks like. -/
example : runArgs ["-l", "--json", "a.json", "-l", "-h"] =
    .ok { scenario := "a.json", logLevel := some "-h" } := by decide

end TimedBridge.CommandLine
