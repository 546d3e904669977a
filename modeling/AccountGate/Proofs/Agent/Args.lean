import AccountGate.Agent.Args
import Mathlib.Tactic.Common

/-!
Which command lines are accepted. Main statement: they are those that split into options with their
paths and at most one command, in any order; every other one is refused for the first word at which
such a split cannot go on.
-/

namespace AccountGate.Agent

namespace Command

variable {word : String} {c : Command}

theorem named?_name (c : Command) : named? c.name = some c := by
  cases c <;> rfl

theorem named?_eq_some_iff : named? word = some c ↔ c.name = word := by
  constructor
  · intro h
    simpa using List.find?_some h
  · rintro rfl
    exact named?_name c

theorem named?_eq_none_iff : named? word = none ↔ ∀ c : Command, c.name ≠ word := by
  rw [Option.eq_none_iff_forall_ne_some]
  simp only [ne_eq, named?_eq_some_iff]

/-- No command is written like the option. -/
theorem name_ne_configOption (c : Command) : c.name ≠ Args.configOption := by
  cases c <;> decide

end Command

namespace Args

variable {words rest : List String} {command : Option Command} {seen paths : List String}

/-- The option once for each of the paths; a path can be any word, also one like the option. -/
def options (paths : List String) : List String := paths.flatMap fun path => [configOption, path]

/-- Options before and after a command, if there is one. -/
def written (before : List String) (command : Option Command) (after : List String) :
    List String :=
  options before ++ (command.map Command.name).toList ++ options after

/-- The rest starts with a word that cannot stand there, and this is reported of it. -/
inductive Offends (command : Option Command) : List String → Fault → Prop
  | noPath : Offends command [configOption] .noPath
  | unknown {word : String} {rest : List String} (hfirst : command = none)
      (hword : word ≠ configOption) (hname : ∀ c : Command, c.name ≠ word) :
      Offends command (word :: rest) (.unknownCommand word)
  | unexpected {word : String} {rest : List String} (hsecond : command ≠ none)
      (hword : word ≠ configOption) : Offends command (word :: rest) (.unexpected word)

/-- The rest does not start with an option and its path. -/
inductive Stops : List String → Prop
  | nil : Stops []
  | option : Stops [configOption]
  | word {word : String} {rest : List String} (h : word ≠ configOption) : Stops (word :: rest)

/-- From the front of the words, options are taken as long as there are any. -/
theorem exists_options : ∀ words : List String,
    ∃ paths rest, words = options paths ++ rest ∧ Stops rest
  | [] => ⟨[], [], rfl, .nil⟩
  | [word] => by
    by_cases hword : word = configOption
    · exact ⟨[], [word], rfl, hword ▸ .option⟩
    · exact ⟨[], [word], rfl, .word hword⟩
  | word :: path :: more => by
    by_cases hword : word = configOption
    · obtain ⟨paths, rest, rfl, hrest⟩ := exists_options more
      exact ⟨path :: paths, rest, by rw [hword]; rfl, hrest⟩
    · exact ⟨[], word :: path :: more, rfl, .word hword⟩

theorem read_options (command : Option Command) (seen paths rest : List String) :
    read command seen.getLast? (options paths ++ rest) =
      read command (seen ++ paths).getLast? rest := by
  induction paths generalizing seen with
  | nil => rw [List.append_nil]; rfl
  | cons path paths ih =>
    have hstep : read command seen.getLast? (options (path :: paths) ++ rest) =
        read command (seen ++ [path]).getLast? (options paths ++ rest) := by
      rw [List.getLast?_concat]
      exact if_pos rfl
    rw [hstep, ih, List.append_assoc]
    rfl

theorem read_name (c : Command) (path : Option String) (rest : List String) :
    read none path (c.name :: rest) = read (some c) path rest := by
  rw [read.eq_def]
  dsimp only
  rw [if_neg c.name_ne_configOption, Command.named?_name]
  rfl

/-- What is written is read up to its end, and only the order of the paths counts. -/
theorem read_written (before : List String) (command : Option Command) (after rest : List String) :
    read none none (written before command after ++ rest) =
      read command (before ++ after).getLast? rest := by
  have hbefore := read_options none [] before
    ((command.map Command.name).toList ++ options after ++ rest)
  rw [written, List.append_assoc, List.append_assoc]
  rw [List.append_assoc] at hbefore
  refine hbefore.trans ?_
  cases command with
  | none => exact read_options none before after rest
  | some c => exact (read_name c _ _).trans (read_options (some c) before after rest)

theorem read_of_offends {path : Option String} {fault : Fault} (h : Offends command rest fault) :
    read command path rest = .error fault := by
  rw [read.eq_def]
  cases h with
  | noPath => exact if_pos rfl
  | unknown hfirst hword hname =>
    dsimp only
    rw [if_neg hword, hfirst, Command.named?_eq_none_iff.mpr hname]
    rfl
  | unexpected hsecond hword =>
    dsimp only
    rw [if_neg hword, if_neg (by simpa using hsecond)]

/-- Where the options stop, the words end or the next one offends, unless it is the first command. -/
theorem Stops.cases (h : Stops rest) (command : Option Command) :
    rest = [] ∨ (∃ fault, Offends command rest fault) ∨
      command = none ∧ ∃ c more, rest = Command.name c :: more := by
  cases h with
  | nil => exact .inl rfl
  | option => exact .inr (.inl ⟨_, .noPath⟩)
  | @word word more hword =>
    by_cases hfirst : command = none
    · by_cases hname : ∀ c : Command, c.name ≠ word
      · exact .inr (.inl ⟨_, .unknown hfirst hword hname⟩)
      · push Not at hname
        obtain ⟨c, rfl⟩ := hname
        exact .inr (.inr ⟨hfirst, c, more, rfl⟩)
    · exact .inr (.inl ⟨_, .unexpected hfirst hword⟩)

/-- Any words are written in this way up to their end or up to one that offends. -/
theorem exists_written (words : List String) : ∃ before command after rest,
    words = written before command after ++ rest ∧
      (rest = [] ∨ ∃ fault, Offends command rest fault) := by
  obtain ⟨before, rest, rfl, hstops⟩ := exists_options words
  rcases hstops.cases none with hend | hoffends | ⟨-, c, more, hrest⟩
  · exact ⟨before, none, [], rest, by simp [written, options], .inl hend⟩
  · exact ⟨before, none, [], rest, by simp [written, options], .inr hoffends⟩
  · obtain ⟨after, last, hmore, hstops'⟩ := exists_options more
    refine ⟨before, some c, after, last, by simp [written, hrest, hmore], ?_⟩
    rcases hstops'.cases (some c) with hend | hoffends | ⟨hfirst, -⟩
    · exact .inl hend
    · exact .inr hoffends
    · exact absurd hfirst (by simp)

/-- What an accepted command line says. -/
def said (command : Option Command) (paths : List String) : Args :=
  ⟨command.getD .status, paths.getLast?⟩

theorem read_eq_ok_iff {args : Args} : read none none words = .ok args ↔
    ∃ before command after, words = written before command after ∧
      args = said command (before ++ after) := by
  constructor
  · intro h
    obtain ⟨before, command, after, rest, rfl, hrest⟩ := exists_written words
    rw [read_written] at h
    rcases hrest with rfl | ⟨fault, hoffends⟩
    · exact ⟨before, command, after, List.append_nil _, (Except.ok.inj h).symm⟩
    · exact absurd ((read_of_offends hoffends).symm.trans h) (by simp)
  · rintro ⟨before, command, after, rfl, rfl⟩
    have hread := read_written before command after []
    rw [List.append_nil] at hread
    exact hread

theorem read_eq_error_iff {fault : Fault} : read none none words = .error fault ↔
    ∃ before command after rest, words = written before command after ++ rest ∧
      Offends command rest fault := by
  constructor
  · intro h
    obtain ⟨before, command, after, rest, rfl, hrest⟩ := exists_written words
    rw [read_written] at h
    rcases hrest with rfl | ⟨fault', hoffends⟩
    · exact absurd h (by simp [read])
    · obtain rfl := Except.error.inj ((read_of_offends hoffends).symm.trans h)
      exact ⟨before, command, after, rest, rfl, hoffends⟩
  · rintro ⟨before, command, after, rest, rfl, hoffends⟩
    rw [read_written]
    exact read_of_offends hoffends

/-- A command line is accepted exactly when the words after the name of the program are options, each
with any word for its path, and at most one command among them; it says that command, or else
`status`, and the last of the paths, wherever the command stands. Any other one is refused for its
first word that cannot stand where it does: the words before it are such options and such a command,
and it is an option without a path, a first command that there is not, or a second one. -/
theorem accepted_up_to_first_offender (words : List String) :
    (∀ args, parse words = .ok args ↔ ∃ before command after,
      words.drop 1 = written before command after ∧
        args = ⟨command.getD .status, (before ++ after).getLast?⟩) ∧
    (∀ fault, parse words = .error fault ↔ ∃ before command after rest,
      words.drop 1 = written before command after ++ rest ∧ Offends command rest fault) ∧
    ∀ program before command after, parse (program :: written before command after) =
      parse (program :: written [] command (before ++ after)) := by
  refine ⟨fun args => read_eq_ok_iff, fun fault => read_eq_error_iff, ?_⟩
  intro program before command after
  have hread (before after : List String) :
      parse (program :: written before command after) = .ok (said command (before ++ after)) :=
    read_eq_ok_iff.mpr ⟨before, command, after, rfl, rfl⟩
  rw [hread, hread]
  rfl

/-- An option takes the word after it, whatever it is. -/
example : parse ["agent", "--config", "--config", "login", "--config", "a.toml"] =
    .ok ⟨.login, some "a.toml"⟩ := by decide

end Args

end AccountGate.Agent
