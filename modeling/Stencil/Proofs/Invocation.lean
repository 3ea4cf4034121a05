import Stencil.Command.Arguments

namespace Stencil

theorem bind_eq_ok {ε α β : Type} {x : Except ε α} {f : α → Except ε β} {b : β} :
    (x >>= f) = .ok b ↔ ∃ a, x = .ok a ∧ f a = .ok b := by
  cases x with
  | error e => simp [bind, Except.bind]
  | ok a => simp [bind, Except.bind]

theorem bind_eq_error {ε α β : Type} {x : Except ε α} {f : α → Except ε β} {e : ε} :
    (x >>= f) = .error e ↔ x = .error e ∨ ∃ a, x = .ok a ∧ f a = .error e := by
  cases x with
  | error e => simp [bind, Except.bind]
  | ok a => simp [bind, Except.bind]

/-- The values that arguments give to an option, in order. -/
def Flag.given (flag : Flag) : List String → List String
  | [] => []
  | argument :: rest =>
    match Argument.read argument.toList with
    | .terminator => []
    | .help | .positional => given flag rest
    | .option found (some value) =>
      if found = some flag then value :: given flag rest else given flag rest
    | .option found none =>
      match rest with
      | [] => []
      | value :: rest => if found = some flag then value :: given flag rest else given flag rest

/-- The arguments without an option and its values. -/
def Flag.without (flag : Flag) : List String → List String
  | [] => []
  | argument :: rest =>
    match Argument.read argument.toList with
    | .terminator => argument :: rest
    | .help | .positional => argument :: without flag rest
    | .option found (some _) =>
      if found = some flag then without flag rest else argument :: without flag rest
    | .option found none =>
      match rest with
      | [] => [argument]
      | value :: rest =>
        if found = some flag then without flag rest else argument :: value :: without flag rest

theorem Flag.given_positional {argument : String} (h : Argument.read argument.toList = .positional)
    (flag : Flag) (rest : List String) : flag.given (argument :: rest) = flag.given rest := by
  rw [given, h]

theorem Flag.without_positional {argument : String} (h : Argument.read argument.toList = .positional)
    (flag : Flag) (rest : List String) :
    flag.without (argument :: rest) = argument :: flag.without rest := by
  rw [without, h]

namespace Settings

variable {topic : Topic} {takes : Flag → Bool} {s t u : Settings}

/-- How arguments are read, one after another. -/
inductive Reads (takes : Flag → Bool) : Settings → List String → Settings → Prop
  | done {s : Settings} : Reads takes s [] s
  | terminator {s t : Settings} {argument : String} {rest : List String}
      (h : Argument.read argument.toList = .terminator) (hrest : s.readPositional rest = .ok t) :
      Reads takes s (argument :: rest) t
  | positional {s t u : Settings} {argument : String} {rest : List String}
      (h : Argument.read argument.toList = .positional) (hset : s.setPath argument = .ok u)
      (hrest : Reads takes u rest t) : Reads takes s (argument :: rest) t
  | attached {s t u : Settings} {argument value : String} {rest : List String} {flag : Flag}
      (h : Argument.read argument.toList = .option (some flag) (some value))
      (htakes : takes flag = true) (hset : s.set flag value = .ok u) (hrest : Reads takes u rest t) :
      Reads takes s (argument :: rest) t
  | detached {s t u : Settings} {argument value : String} {rest : List String} {flag : Flag}
      (h : Argument.read argument.toList = .option (some flag) none) (htakes : takes flag = true)
      (hvalue : Argument.read value.toList = .positional) (hset : s.set flag value = .ok u)
      (hrest : Reads takes u rest t) : Reads takes s (argument :: value :: rest) t

theorem reads_of_read {arguments : List String} (h : read topic takes s arguments = .ok t) :
    Reads takes s arguments t := by
  fun_induction read topic takes s arguments with
  | case1 s =>
    cases h
    exact .done
  | case2 s argument rest hread => exact .terminator hread h
  | case3 => cases h
  | case4 s argument rest hread ih =>
    obtain ⟨u, hset, hrest⟩ := bind_eq_ok.1 h
    exact .positional hread hset (ih u hrest)
  | case5 => cases h
  | case6 => cases h
  | case7 s argument rest flag htakes value hread ih =>
    obtain ⟨u, hset, hrest⟩ := bind_eq_ok.1 h
    exact .attached hread (by simpa using htakes) hset (ih u hrest)
  | case8 => cases h
  | case9 s argument flag htakes value rest hvalue hread ih =>
    obtain ⟨u, hset, hrest⟩ := bind_eq_ok.1 h
    exact .detached hread (by simpa using htakes) hvalue hset (ih u hrest)
  | case10 => cases h

theorem read_of_reads (topic : Topic) {arguments : List String} (h : Reads takes s arguments t) :
    read topic takes s arguments = .ok t := by
  induction h with
  | done => rfl
  | terminator h hrest => simp only [read, h, hrest]
  | positional h hset _ ih => simp only [read, h, hset, ih, bind, Except.bind]
  | attached h htakes hset _ ih =>
    simp only [read, h, htakes, hset, ih, bind, Except.bind, Bool.not_true, Bool.false_eq_true,
      if_false]
  | detached h htakes hvalue hset _ ih =>
    simp only [read, h, htakes, hvalue, hset, ih, bind, Except.bind, Bool.not_true,
      Bool.false_eq_true, if_false]

theorem set_ne_about (s : Settings) (flag : Flag) (value : String) :
    s.set flag value ≠ .error (.about topic) := by
  cases flag <;> simp only [set] <;> repeat' (first | split | nofun)

theorem setPath_ne_about (s : Settings) (path : String) :
    s.setPath path ≠ .error (.about topic) := by
  unfold setPath
  split <;> nofun

theorem readPositional_ne_about (s : Settings) (arguments : List String) :
    s.readPositional arguments ≠ .error (.about topic) := by
  induction arguments generalizing s with
  | nil => nofun
  | cons argument rest ih =>
    intro h
    rcases bind_eq_error.1 h with hset | ⟨u, -, hrest⟩
    · exact setPath_ne_about s argument hset
    · exact ih u hrest

/-- A command answers with help only if an argument asks for it, and then with its own. -/
theorem help_of_read {asked : Topic} {arguments : List String}
    (h : read topic takes s arguments = .error (.about asked)) :
    asked = topic ∧ ∃ argument ∈ arguments, Argument.read argument.toList = .help := by
  fun_induction read topic takes s arguments with
  | case1 => cases h
  | case2 s argument rest => exact absurd h (readPositional_ne_about s rest)
  | case3 s argument rest hread =>
    cases h
    exact ⟨rfl, argument, List.mem_cons_self, hread⟩
  | case4 s argument rest hread ih =>
    rcases bind_eq_error.1 h with hset | ⟨u, -, hrest⟩
    · exact absurd hset (setPath_ne_about s argument)
    · obtain ⟨htopic, asking, hmem, hhelp⟩ := ih u hrest
      exact ⟨htopic, asking, List.mem_cons_of_mem _ hmem, hhelp⟩
  | case5 => cases h
  | case6 => cases h
  | case7 s argument rest flag htakes value hread ih =>
    rcases bind_eq_error.1 h with hset | ⟨u, -, hrest⟩
    · exact absurd hset (set_ne_about s flag value)
    · obtain ⟨htopic, asking, hmem, hhelp⟩ := ih u hrest
      exact ⟨htopic, asking, List.mem_cons_of_mem _ hmem, hhelp⟩
  | case8 => cases h
  | case9 s argument flag htakes value rest hvalue hread ih =>
    rcases bind_eq_error.1 h with hset | ⟨u, -, hrest⟩
    · exact absurd hset (set_ne_about s flag value)
    · obtain ⟨htopic, asking, hmem, hhelp⟩ := ih u hrest
      exact ⟨htopic, asking, List.mem_cons_of_mem _ (List.mem_cons_of_mem _ hmem), hhelp⟩
  | case10 => cases h

/-- All that taking a value can do. -/
theorem set_cases {flag : Flag} {value : String} (h : s.set flag value = .ok t) :
    (flag = .data ∧ t = { s with data := s.data ++ [value] }) ∨
    (flag = .var ∧ ∃ a, Assignment.parse value = .ok a ∧
      t = { s with assignments := s.assignments ++ [a] }) ∨
    (flag = .sigil ∧ ∃ c, value.toList = [c] ∧ s.sigil = none ∧ t = { s with sigil := some c }) ∨
    (flag = .output ∧ s.output = none ∧ t = { s with output := some value }) := by
  cases flag with
  | data =>
    simp only [set] at h
    split at h
    · cases h
    · cases h
      exact .inl ⟨rfl, rfl⟩
  | var =>
    simp only [set] at h
    split at h
    · rename_i a ha
      cases h
      exact .inr (.inl ⟨rfl, a, ha, rfl⟩)
    · cases h
  | sigil =>
    simp only [set] at h
    split at h
    · rename_i c hc
      split at h
      · cases h
      · rename_i hnone
        cases h
        exact .inr (.inr (.inl ⟨rfl, c, hc, by simpa using hnone, rfl⟩))
    · cases h
  | output =>
    simp only [set] at h
    split at h
    · cases h
    · split at h
      · cases h
      · rename_i hnone
        cases h
        exact .inr (.inr (.inr ⟨rfl, by simpa using hnone, rfl⟩))

/-- The same settings for a rendering to standard output. -/
def withoutOutput (s : Settings) : Settings := { s with output := none }

theorem set_withoutOutput {flag : Flag} (h : flag ≠ .output) (value : String) :
    s.withoutOutput.set flag value = (s.set flag value).map withoutOutput := by
  cases flag with
  | data =>
    simp only [set]
    split <;> rfl
  | var =>
    simp only [set]
    split <;> rfl
  | sigil =>
    obtain ⟨path, data, assignments, sigil, output⟩ := s
    simp only [set, withoutOutput]
    split
    · cases sigil <;> rfl
    · rfl
  | output => exact absurd rfl h

theorem withoutOutput_of_set {value : String} (h : s.set .output value = .ok t) :
    t.withoutOutput = s.withoutOutput := by
  rcases set_cases h with ⟨hflag, -⟩ | ⟨hflag, -⟩ | ⟨hflag, -⟩ | ⟨-, -, rfl⟩
  · cases hflag
  · cases hflag
  · cases hflag
  · rfl

theorem setPath_withoutOutput (s : Settings) (path : String) :
    s.withoutOutput.setPath path = (s.setPath path).map withoutOutput := by
  unfold setPath withoutOutput
  cases s.path <;> rfl

theorem readPositional_withoutOutput (s : Settings) (arguments : List String) :
    s.withoutOutput.readPositional arguments = (s.readPositional arguments).map withoutOutput := by
  induction arguments generalizing s with
  | nil => rfl
  | cons argument rest ih =>
    rw [readPositional, readPositional, setPath_withoutOutput]
    cases s.setPath argument with
    | error e => rfl
    | ok u => exact ih u

theorem Reads.without {arguments : List String} (h : Reads takes s arguments t) :
    Reads takes s.withoutOutput (Flag.output.without arguments) t.withoutOutput := by
  induction h with
  | done => exact .done
  | @terminator s t argument rest hread hrest =>
    rw [Flag.without, hread]
    exact .terminator hread (by rw [readPositional_withoutOutput, hrest]; rfl)
  | @positional s t u argument rest hread hset _ ih =>
    rw [Flag.without, hread]
    exact .positional hread (by rw [setPath_withoutOutput, hset]; rfl) ih
  | @attached s t u argument value rest flag hread htakes hset _ ih =>
    rw [Flag.without, hread]
    by_cases hflag : flag = .output
    · subst hflag
      rw [← withoutOutput_of_set hset]
      simpa using ih
    · simp only [Option.some.injEq, hflag, if_false]
      exact .attached hread htakes (by rw [set_withoutOutput hflag, hset]; rfl) ih
  | @detached s t u argument value rest flag hread htakes hvalue hset _ ih =>
    -- the value goes with its option, so it is not taken for an argument of its own
    rw [Flag.without, hread]
    by_cases hflag : flag = .output
    · subst hflag
      rw [← withoutOutput_of_set hset]
      simpa using ih
    · simp only [Option.some.injEq, hflag, if_false]
      exact .detached hread htakes hvalue (by rw [set_withoutOutput hflag, hset]; rfl) ih

theorem given_of_set {flag : Flag} {value : String} (h : s.set flag value = .ok t) :
    t.data = s.data ++ (if flag = .data then [value] else []) ∧
      t.output.toList = s.output.toList ++ (if flag = .output then [value] else []) := by
  rcases set_cases h with ⟨rfl, rfl⟩ | ⟨rfl, a, -, rfl⟩ | ⟨rfl, c, -, -, rfl⟩ | ⟨rfl, hnone, rfl⟩
  · simp
  · simp
  · simp
  · simp [hnone]

theorem given_of_setPath {path : String} (h : s.setPath path = .ok t) :
    t.data = s.data ∧ t.output = s.output := by
  unfold setPath at h
  split at h
  · cases h
    exact ⟨rfl, rfl⟩
  · cases h

theorem given_of_readPositional {arguments : List String} (h : s.readPositional arguments = .ok t) :
    t.data = s.data ∧ t.output = s.output := by
  induction arguments generalizing s with
  | nil =>
    cases h
    exact ⟨rfl, rfl⟩
  | cons argument rest ih =>
    obtain ⟨u, hset, hrest⟩ := bind_eq_ok.1 h
    have hu := given_of_setPath hset
    have ht := ih hrest
    exact ⟨ht.1.trans hu.1, ht.2.trans hu.2⟩

/-- What is read of an option is what the arguments give to it, in their order. -/
theorem Reads.given {arguments : List String} (h : Reads takes s arguments t) :
    t.data = s.data ++ Flag.data.given arguments ∧
      t.output.toList = s.output.toList ++ Flag.output.given arguments := by
  induction h with
  | done => simp [Flag.given]
  | @terminator s t argument rest hread hrest =>
    have ht := given_of_readPositional hrest
    simp [Flag.given, hread, ht]
  | @positional s t u argument rest hread hset _ ih =>
    have hu := given_of_setPath hset
    simp [Flag.given, hread, ih, hu]
  | @attached s t u argument value rest flag hread _ hset _ ih =>
    have hu := given_of_set hset
    cases flag <;> simp [Flag.given, hread, ih, hu]
  | @detached s t u argument value rest flag hread _ _ hset _ ih =>
    have hu := given_of_set hset
    cases flag <;> simp [Flag.given, hread, ih, hu]

end Settings

namespace Command

theorem task_of_ofSettings {task : Settings → Task} {s : Settings} {command : Command}
    (h : ofSettings task s = .ok command) : command.task = task s := by
  unfold ofSettings at h
  split at h
  · cases h
  · cases h
    rfl

theorem task_of_other {topic : Topic} {task : Task} {rest : List String} {command : Command}
    (h : (do ofSettings (fun _ => task) (← Settings.read topic (· == Flag.sigil) {} rest)) =
      .ok command) :
    command.task = task := by
  obtain ⟨s, -, hs⟩ := bind_eq_ok.1 h
  exact task_of_ofSettings hs

/-- Arguments that ask for help or for the version. -/
def Asks (arguments : List String) : Prop :=
  (∃ name ∈ arguments.head?, name = "help" ∨ asksVersion name.toList = true) ∨
    ∃ argument ∈ arguments, Argument.read argument.toList = .help

theorem ofSettings_ne_about (task : Settings → Task) (s : Settings) (topic : Topic) :
    ofSettings task s ≠ .error (.about topic) := by
  unfold ofSettings
  split <;> nofun

theorem asks_of_read {name : String} {rest : List String} {topic asked : Topic}
    {takes : Flag → Bool} {task : Settings → Task}
    (h : (do ofSettings task (← Settings.read topic takes {} rest)) = .error (.about asked)) :
    Asks (name :: rest) := by
  rcases bind_eq_error.1 h with hread | ⟨s, -, hs⟩
  · obtain ⟨-, argument, hmem, hhelp⟩ := Settings.help_of_read hread
    exact .inr ⟨argument, List.mem_cons_of_mem _ hmem, hhelp⟩
  · exact absurd hs (ofSettings_ne_about task s asked)

theorem asks_of_ofArguments {arguments : List String} {topic : Topic}
    (h : ofArguments arguments = .error (.about topic)) : Asks arguments := by
  cases arguments with
  | nil => cases h
  | cons name rest =>
    simp only [ofArguments] at h
    split at h
    · exact asks_of_read h
    · exact asks_of_read h
    · exact asks_of_read h
    · exact asks_of_read h
    · exact .inl ⟨"help", rfl, .inl rfl⟩
    · rw [Except.error.injEq, Interruption.ofName] at h
      split at h
      · rename_i hversion
        exact .inl ⟨name, rfl, .inr hversion⟩
      · split at h
        · rename_i hhelp
          exact .inr ⟨name, List.mem_cons_self, hhelp⟩
        · cases h
        · cases h

theorem exists_settings {arguments files : List String} {assignments : List Assignment}
    {output : Option String} {path : String} {options : Options}
    (h : ofArguments arguments = .ok ⟨.render files assignments output, path, options⟩) :
    ∃ rest s, arguments = "render" :: rest ∧ Settings.Reads (fun _ => true) {} rest s ∧
      ofSettings (fun s => .render s.data s.assignments s.output) s =
        .ok ⟨.render files assignments output, path, options⟩ := by
  cases arguments with
  | nil => cases h
  | cons name rest =>
    simp only [ofArguments] at h
    split at h
    · obtain ⟨s, hread, hs⟩ := bind_eq_ok.1 h
      exact ⟨rest, s, rfl, Settings.reads_of_read hread, hs⟩
    · cases task_of_other h
    · cases task_of_other h
    · cases task_of_other h
    · cases h
    · cases h

theorem given_of_ofArguments {arguments files : List String} {assignments : List Assignment}
    {output : Option String} {path : String} {options : Options}
    (h : ofArguments arguments = .ok ⟨.render files assignments output, path, options⟩) :
    files = Flag.data.given arguments ∧ output.toList = Flag.output.given arguments := by
  obtain ⟨rest, s, rfl, hreads, hs⟩ := exists_settings h
  have htask := task_of_ofSettings hs
  simp only [Task.render.injEq] at htask
  obtain ⟨rfl, -, rfl⟩ := htask
  have hname : Argument.read "render".toList = .positional := rfl
  have hgiven := hreads.given
  rw [Flag.given_positional hname, Flag.given_positional hname]
  simpa using hgiven

theorem ofArguments_without {arguments files : List String} {assignments : List Assignment}
    {output : Option String} {path : String} {options : Options}
    (h : ofArguments arguments = .ok ⟨.render files assignments output, path, options⟩) :
    ofArguments (Flag.output.without arguments) =
      .ok ⟨.render files assignments none, path, options⟩ := by
  obtain ⟨rest, s, rfl, hreads, hs⟩ := exists_settings h
  have hname : Argument.read "render".toList = .positional := rfl
  have hread := Settings.read_of_reads .render hreads.without
  have hs' : ofSettings (fun s => .render s.data s.assignments s.output) s.withoutOutput =
      .ok ⟨.render files assignments none, path, options⟩ := by
    unfold ofSettings Settings.withoutOutput at *
    cases hpath : s.path with
    | none => simp [hpath] at hs
    | some p =>
      simp only [hpath] at hs
      cases hs
      rfl
  rw [Flag.without_positional hname, ofArguments]
  exact bind_eq_ok.2 ⟨s.withoutOutput, hread, hs'⟩

end Command
end Stencil
