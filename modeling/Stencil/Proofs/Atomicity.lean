import Stencil.Command.Run
import Stencil.Proofs.Automaton
import Stencil.Proofs.Files
import Stencil.Proofs.Items
import Stencil.Proofs.Invocation
import Stencil.Proofs.Lexemes

namespace Stencil

/-- A text on standard output, or in a file. -/
def Reply.ofText : Option String → String → Reply
  | none, text => { stdout := text }
  | some file, text => { output := some (file, text) }

namespace Command

theorem loadAll_eq_collect (read : String → Except FileError ByteArray) (files : List String) :
    loadAll read files = collect (files.map (Data.load read)) := by
  induction files with
  | nil => rfl
  | cons file rest ih =>
    rw [loadAll, List.map_cons, ih]
    cases Data.load read file with
    | error e => rfl
    | ok data =>
      cases h : collect (rest.map (Data.load read)) <;>
        simp [collect, h, bind, Except.bind, pure, Except.pure, Except.map]

variable {store : Store} {stdin : ByteArray} {files : List String} {assignments : List Assignment}
  {output : Option String} {path : String} {options : Options}

/-- What a rendering comes to if all that it needs can be read. -/
inductive Renders (store : Store) (stdin : ByteArray) (files : List String)
    (assignments : List Assignment) (command : Command) : String → Prop
  | text {source : String} {maps : List Data} {t : Template}
      (hsource : command.source store.read stdin = .ok source)
      (hfiles : files.map (Data.load store.read) = maps.map .ok)
      (hparse : Template.parse command.options source = .ok t) :
      Renders store stdin files assignments command
        (t.render (Data.assign (Data.merge maps) assignments))

/-- Why a rendering fails and what it says: the first of its stages that does. -/
inductive Fails (store : Store) (stdin : ByteArray) (files : List String)
    (assignments : List Assignment) (output : Option String) (command : Command) : String → Prop
  | template {e : FileError} (hsource : command.source store.read stdin = .error e) :
      Fails store stdin files assignments output command
        ("Unable to read template '" ++ command.path ++ "': " ++ e.message ++ "\n")
  | data {source file : String} {before after : List String} {maps : List Data} {e : ContextError}
      (hsource : command.source store.read stdin = .ok source)
      (hfiles : files = before ++ file :: after)
      (hbefore : before.map (Data.load store.read) = maps.map .ok)
      (hfile : Data.load store.read file = .error e) :
      Fails store stdin files assignments output command ((TemplateError.context e).message ++ "\n")
  | parse {source : String} {maps : List Data} {e : Spanned TemplateError}
      (hsource : command.source store.read stdin = .ok source)
      (hfiles : files.map (Data.load store.read) = maps.map .ok)
      (hparse : Template.parse command.options source = .error e) :
      Fails store stdin files assignments output command (failReport command.path source e)
  | output {text file : String} {e : FileError}
      (hrenders : Renders store stdin files assignments command text)
      (houtput : output = some file) (hwrite : store.write file text = .error e) :
      Fails store stdin files assignments output command
        ("Unable to write '" ++ file ++ "': " ++ e.message ++ "\n")

/-- The file that a command is to write. -/
def output? (command : Command) : Option String :=
  match command.task with
  | .render _ _ output => output
  | _ => none

theorem fails_or_renders (store : Store) (stdin : ByteArray) (files : List String)
    (assignments : List Assignment) (output : Option String) (command : Command) :
    (∃ reason, Fails store stdin files assignments output command reason) ∨
      ∃ text, Renders store stdin files assignments command text ∧
        ∀ file, output = some file → ∃ after, store.write file text = .ok after := by
  -- the stages in their order, each with what the ones before it have read
  cases hsource : command.source store.read stdin with
  | error e => exact .inl ⟨_, .template hsource⟩
  | ok source =>
    cases hmaps : collect (files.map (Data.load store.read)) with
    | error e =>
      obtain ⟨maps, rest, hitems⟩ := collect_eq_error_iff.1 hmaps
      obtain ⟨before, others, hfiles, hbefore, hothers⟩ := List.map_eq_append_iff.1 hitems
      obtain ⟨file, after, rfl, hfile, -⟩ := List.map_eq_cons_iff.1 hothers
      exact .inl ⟨_, .data hsource hfiles hbefore hfile⟩
    | ok maps =>
      have hfiles := collect_eq_ok_iff.1 hmaps
      cases hparse : Template.parse command.options source with
      | error e => exact .inl ⟨_, .parse hsource hfiles hparse⟩
      | ok t =>
        have hrenders : Renders store stdin files assignments command
            (t.render (Data.assign (Data.merge maps) assignments)) := .text hsource hfiles hparse
        cases output with
        | none => exact .inr ⟨_, hrenders, by simp⟩
        | some file =>
          cases hwrite : store.write file (t.render (Data.assign (Data.merge maps) assignments)) with
          | error e => exact .inl ⟨_, .output hrenders rfl hwrite⟩
          | ok after =>
            refine .inr ⟨_, hrenders, fun other hother => ?_⟩
            cases hother
            exact ⟨after, hwrite⟩

end Command

namespace Outcome
open Command

theorem run_of_command {arguments : List String} {command : Command} {stdin : ByteArray}
    {store : Store} {guide : Topic → String} (h : Command.ofArguments arguments = .ok command) :
    run arguments stdin store guide = ofReply (command.reply store.read stdin) store := by
  rw [run, h]

variable {arguments files : List String} {assignments : List Assignment} {output : Option String}
  {command : Command} {stdin : ByteArray} {store : Store} {guide : Topic → String}

theorem run_of_about {topic : Topic} (h : Command.ofArguments arguments = .error (.about topic)) :
    run arguments stdin store guide = ⟨0, guide topic, "", store⟩ := by
  rw [run, h]

theorem run_of_usage {e : UsageError} (h : Command.ofArguments arguments = .error (.usage e)) :
    run arguments stdin store guide = usage e store := by
  rw [run, h]

theorem reply_of_renders {text : String} (htask : command.task = .render files assignments output)
    (h : Renders store stdin files assignments command text) :
    command.reply store.read stdin = Reply.ofText output text := by
  obtain ⟨hsource, hfiles, hparse⟩ := h
  have hload := collect_eq_ok_iff.2 hfiles
  rw [← loadAll_eq_collect] at hload
  simp only [reply, hsource, htask, render, hload, Template.renderSource, hparse, Except.map]
  cases output <;> rfl

theorem run_of_renders {text : String} (h : Command.ofArguments arguments = .ok command)
    (htask : command.task = .render files assignments output)
    (hrenders : Renders store stdin files assignments command text) :
    run arguments stdin store guide = ofReply (Reply.ofText output text) store := by
  rw [run_of_command h, reply_of_renders htask hrenders]

theorem run_of_fails {reason : String} (h : Command.ofArguments arguments = .ok command)
    (htask : command.task = .render files assignments output)
    (hfails : Fails store stdin files assignments output command reason) :
    run arguments stdin store guide = ⟨1, "", reason, store⟩ := by
  rw [run_of_command h]
  cases hfails with
  | template hsource => simp only [reply, hsource, ofReply, Reply.failure]
  | @data source file before after maps e hsource hlist hbefore hfile =>
    have hload : loadAll store.read files = .error e := by
      rw [loadAll_eq_collect, collect_eq_error_iff]
      exact ⟨_, _, by rw [hlist, List.map_append, List.map_cons, hbefore, hfile]⟩
    simp only [reply, hsource, htask, render, hload, ofReply, Reply.failure]
  | parse hsource hlist hparse =>
    have hload := collect_eq_ok_iff.2 hlist
    rw [← loadAll_eq_collect] at hload
    simp only [reply, hsource, htask, render, hload, Template.renderSource, hparse, Except.map,
      ofReply, Reply.failure]
  | output hrenders houtput hwrite =>
    rw [reply_of_renders htask hrenders, houtput]
    simp only [Reply.ofText, ofReply, hwrite, Reply.unwritable, Reply.failure]

/-- Only what is written to a file changes the store. -/
theorem store_of_ofReply {r : Reply} (h : r.output = none) : (ofReply r store).store = store := by
  rw [ofReply, h]

theorem output_reply (h : command.output? = none) :
    (command.reply store.read stdin).output = none := by
  obtain ⟨task, path, options⟩ := command
  unfold reply
  split
  · rfl
  · cases task with
    | render files assignments output =>
      cases (h : output = none)
      simp only [render]
      split
      · rfl
      · split <;> rfl
    | tokens =>
      simp only [listTokens]
      split <;> rfl
    | tree =>
      simp only [showTree]
      split <;> rfl
    | check =>
      simp only [check]
      split <;> rfl

theorem run_render_cases (stdin : ByteArray) (store : Store) (guide : Topic → String) {path : String}
    {options : Options}
    (h : Command.ofArguments arguments = .ok ⟨.render files assignments output, path, options⟩) :
    let command : Command := ⟨.render files assignments output, path, options⟩
    (∃ reason, Fails store stdin files assignments output command reason ∧
      run arguments stdin store guide = ⟨1, "", reason, store⟩) ∨
    (∃ text, Renders store stdin files assignments command text ∧ output = none ∧
      run arguments stdin store guide = ⟨0, text, "", store⟩) ∨
    ∃ text file after, Renders store stdin files assignments command text ∧ output = some file ∧
      store.write file text = .ok after ∧ run arguments stdin store guide = ⟨0, "", "", after⟩ := by
  intro command
  rcases fails_or_renders store stdin files assignments output command with
    ⟨reason, hfails⟩ | ⟨text, hrenders, hwrites⟩
  · exact .inl ⟨reason, hfails, run_of_fails h rfl hfails⟩
  · have hrun : run arguments stdin store guide = ofReply (Reply.ofText output text) store :=
      run_of_renders h rfl hrenders
    cases output with
    | none => exact .inr (.inl ⟨text, hrenders, rfl, hrun⟩)
    | some file =>
      obtain ⟨after, hwrite⟩ := hwrites file rfl
      refine .inr (.inr ⟨text, file, after, hrenders, rfl, hwrite, ?_⟩)
      rw [hrun]
      simp only [Reply.ofText, ofReply, hwrite]

/-- A rendering to standard output comes to the same as one to a file. -/
theorem run_without_of_renders {path text : String} {options : Options}
    (h : Command.ofArguments arguments = .ok ⟨.render files assignments output, path, options⟩)
    (hrenders : Renders store stdin files assignments
      ⟨.render files assignments output, path, options⟩ text) :
    run (Flag.output.without arguments) stdin store guide = ⟨0, text, "", store⟩ := by
  have hplain : Renders store stdin files assignments
      ⟨.render files assignments none, path, options⟩ text := by
    obtain ⟨hsource, hfiles, hparse⟩ := hrenders
    exact .text hsource hfiles hparse
  rw [run_of_renders (ofArguments_without h) rfl hplain]
  rfl

theorem store_of_failure (arguments : List String) (stdin : ByteArray) (store : Store)
    (guide : Topic → String) (h : (run arguments stdin store guide).code ≠ 0) :
    (run arguments stdin store guide).store = store := by
  cases hcommand : Command.ofArguments arguments with
  | error e =>
    cases e with
    | about topic => rw [run_of_about hcommand]
    | usage e =>
      rw [run_of_usage hcommand]
      rfl
  | ok command =>
    cases houtput : command.output? with
    | none =>
      rw [run_of_command hcommand]
      exact store_of_ofReply (output_reply houtput)
    | some file =>
      obtain ⟨task, path, options⟩ := command
      cases task with
      | render files assignments output =>
        rcases run_render_cases stdin store guide hcommand with
          ⟨reason, -, hrun⟩ | ⟨text, -, -, hrun⟩ | ⟨text, file, after, -, -, -, hrun⟩
        · rw [hrun]
        · rw [hrun]
        · rw [hrun] at h
          exact absurd rfl h
      | _ => cases houtput

theorem rewritten_of_success {path file : String} {options : Options}
    (h : Command.ofArguments arguments = .ok ⟨.render files assignments (some file), path, options⟩)
    (hcode : (run arguments stdin store guide).code = 0) :
    (run arguments stdin store guide).stdout = "" ∧
      let plain := run (Flag.output.without arguments) stdin store guide
      plain.code = 0 ∧ plain.store = store ∧
        ∃ place,
          Store.Rewritten store (run arguments stdin store guide).store file plain.stdout place := by
  rcases run_render_cases stdin store guide h with
    ⟨reason, -, hrun⟩ | ⟨text, -, hnone, -⟩ | ⟨text, other, after, hrenders, hfile, hwrite, hrun⟩
  · rw [hrun] at hcode
    cases hcode
  · cases hnone
  · cases hfile
    rw [hrun, run_without_of_renders h hrenders]
    exact ⟨rfl, rfl, rfl, Store.exists_rewritten hwrite⟩

theorem fails_iff {path : String} {options : Options}
    (h : Command.ofArguments arguments = .ok ⟨.render files assignments output, path, options⟩) :
    (run arguments stdin store guide).code ≠ 0 ↔ ∃ reason,
      Fails store stdin files assignments output
        ⟨.render files assignments output, path, options⟩ reason := by
  constructor
  · intro hcode
    rcases run_render_cases stdin store guide h with
      ⟨reason, hfails, -⟩ | ⟨text, -, -, hrun⟩ | ⟨text, file, after, -, -, -, hrun⟩
    · exact ⟨reason, hfails⟩
    · rw [hrun] at hcode
      exact absurd rfl hcode
    · rw [hrun] at hcode
      exact absurd rfl hcode
  · rintro ⟨reason, hfails⟩
    rw [run_of_fails h rfl hfails]
    show (1 : UInt32) ≠ 0
    decide

/-- A request for help or for the version gets its text. Else a failure leaves all files as they are,
    and a success all but the output of a rendering, which holds what would have been printed. -/
theorem run_all_or_nothing (arguments : List String) (stdin : ByteArray) (store : Store)
    (guide : Topic → String) :
    let after := run arguments stdin store guide
    (after.code ≠ 0 → after.store = store) ∧
    (∀ topic, Command.ofArguments arguments = .error (.about topic) →
      Command.Asks arguments ∧ after = ⟨0, guide topic, "", store⟩) ∧
    (after.code = 0 → (∀ topic, Command.ofArguments arguments ≠ .error (.about topic)) →
      ∃ command, Command.ofArguments arguments = .ok command ∧
        (command.output? = none → after.store = store) ∧
        ∀ file, command.output? = some file → after.stdout = "" ∧
          let plain := run (Flag.output.without arguments) stdin store guide
          plain.code = 0 ∧ plain.store = store ∧
            ∃ place, Store.Rewritten store after.store file plain.stdout place) ∧
    (∀ files assignments output path options,
      Command.ofArguments arguments = .ok ⟨.render files assignments output, path, options⟩ →
      let command : Command := ⟨.render files assignments output, path, options⟩
      files = Flag.data.given arguments ∧ output.toList = Flag.output.given arguments ∧
      (after.code ≠ 0 ↔ ∃ reason, Fails store stdin files assignments output command reason) ∧
      ∀ reason, Fails store stdin files assignments output command reason →
        after.code = 1 ∧ after.stdout = "" ∧ after.stderr = reason) := by
  intro after
  refine ⟨store_of_failure arguments stdin store guide, ?asked, ?success, ?failure⟩
  case asked => exact fun topic h => ⟨asks_of_ofArguments h, run_of_about h⟩
  case success =>
    intro hcode hanswer
    cases hcommand : Command.ofArguments arguments with
    | error e =>
      cases e with
      | about topic => exact absurd hcommand (hanswer topic)
      | usage e =>
        have hrun : after = usage e store := run_of_usage hcommand
        rw [hrun] at hcode
        cases hcode
    | ok command =>
      refine ⟨command, rfl, ?_, ?_⟩
      · intro houtput
        simp only [after, run_of_command hcommand]
        exact store_of_ofReply (output_reply houtput)
      · intro file houtput
        obtain ⟨task, path, options⟩ := command
        cases task with
        | render files assignments output =>
          cases (houtput : output = some file)
          exact rewritten_of_success hcommand hcode
        | _ => cases houtput
  case failure =>
    intro files assignments output path options h command
    obtain ⟨hfiles, houtput⟩ := given_of_ofArguments h
    refine ⟨hfiles, houtput, fails_iff h, ?_⟩
    intro reason hfails
    simp only [after, run_of_fails h rfl hfails, true_and]

/-- A rendering with an output that is asked for help: it succeeds, prints and writes nothing. -/
theorem help_leaves_output :
    let arguments := ["render", "-", "-o", "out.txt", "--help"]
    let after := run arguments "text".toUTF8 ⟨[]⟩
    Flag.output.given arguments = ["out.txt"] ∧ after.code = 0 ∧ after.stdout ≠ "" ∧
      ¬ ∃ place, Store.Rewritten ⟨[]⟩ after.store "out.txt"
        (run (Flag.output.without arguments) "text".toUTF8 ⟨[]⟩).stdout place := by
  intro arguments after
  have hasked : Command.ofArguments arguments = .error (.about .render) := rfl
  have hrun : after = ⟨0, Topic.render.text, "", ⟨[]⟩⟩ := run_of_about hasked
  refine ⟨rfl, by rw [hrun], ?_, ?_⟩
  · rw [hrun]
    simp [Topic.text, Topic.page, Topic.summary]
  · rintro ⟨place, -, hholds, -⟩
    rw [hrun] at hholds
    cases hholds

/-- A template that is its own output: it is replaced if all goes well, and kept if data cannot be
    read, which is said before its own error. -/
theorem run_all_or_nothing_own_output :
    let before : Store := ⟨[⟨["t"], "$x$!".toUTF8⟩]⟩
    let after := run ["render", "t", "-V", "x=1", "-o", "t"] .empty before
    let broken : Store := ⟨[⟨["t"], "$if(x)$".toUTF8⟩]⟩
    let kept := run ["render", "t", "-d", "a.txt", "-o", "t"] .empty broken
    let asked := run ["render", "t", "-o", "t", "-h"] .empty before
    after.code = 0 ∧ after.stdout = "" ∧
      (∃ place, Store.Rewritten before after.store "t"
        (run ["render", "t", "-V", "x=1"] .empty before).stdout place) ∧
      kept.code = 1 ∧ kept.stdout = "" ∧
      kept.stderr = (TemplateError.context (.unsupportedFormat "a.txt")).message ++ "\n" ∧
      kept.store = broken ∧ asked = ⟨0, Topic.render.text, "", before⟩ := by
  intro before after broken kept asked
  have hrender : Command.ofArguments ["render", "t", "-V", "x=1", "-o", "t"] =
      .ok ⟨.render [] [⟨"x", "1"⟩] (some "t"), "t", ⟨'$'⟩⟩ := rfl
  have hscan : Automaton.scan '$' "$x$!".toList =
      [.ok ⟨.directive "x", ⟨0, 3⟩⟩, .ok ⟨.plain "!", ⟨3, 4⟩⟩] := by
    rfl
  obtain ⟨t, hparse⟩ : ∃ t, Template.parse ⟨'$'⟩ "$x$!" = .ok t := by
    refine ⟨⟨.sequence [.lookup "x", .text "!"]⟩, ?_⟩
    rw [Template.parse_eq_ok_iff,
      ← Automaton.scan_of_lexed (TokenStream.lexed_start '$' "$x$!"), hscan]
    rfl
  have hcode : after.code = 0 := by
    have hsource : Command.source before.read .empty
        ⟨.render [] [⟨"x", "1"⟩] (some "t"), "t", ⟨'$'⟩⟩ = .ok "$x$!" :=
      decodeText_toUTF8 "$x$!"
    have hfiles : [].map (Data.load before.read) = ([] : List Data).map .ok := rfl
    have hrun : after = ofReply (Reply.ofText (some "t") _) before :=
      run_of_renders hrender rfl (.text hsource hfiles hparse)
    rw [hrun]
    rfl
  have hanswer (topic : Topic) : Command.ofArguments ["render", "t", "-V", "x=1", "-o", "t"] ≠
      .error (.about topic) := by
    rw [hrender]
    nofun
  obtain ⟨-, -, hsuccess, -⟩ :=
    run_all_or_nothing ["render", "t", "-V", "x=1", "-o", "t"] .empty before Topic.text
  obtain ⟨command, hcommand, -, hwritten⟩ := hsuccess hcode hanswer
  cases hrender.symm.trans hcommand
  obtain ⟨hstdout, -, -, hrewritten⟩ := hwritten "t" rfl
  obtain ⟨hunchanged, -, -, hfailure⟩ :=
    run_all_or_nothing ["render", "t", "-d", "a.txt", "-o", "t"] .empty broken Topic.text
  have hkept : Command.ofArguments ["render", "t", "-d", "a.txt", "-o", "t"] =
      .ok ⟨.render ["a.txt"] [] (some "t"), "t", ⟨'$'⟩⟩ := rfl
  have hlist : ["a.txt"] = [] ++ "a.txt" :: [] := rfl
  have hbefore : [].map (Data.load broken.read) = ([] : List Data).map .ok := rfl
  have hfails : Fails broken .empty ["a.txt"] [] (some "t")
      ⟨.render ["a.txt"] [] (some "t"), "t", ⟨'$'⟩⟩
      ((TemplateError.context (.unsupportedFormat "a.txt")).message ++ "\n") :=
    .data (decodeText_toUTF8 "$if(x)$") hlist hbefore rfl
  obtain ⟨-, -, -, hreported⟩ := hfailure _ _ _ _ _ hkept
  obtain ⟨hone, hsilent, hstderr⟩ := hreported _ hfails
  have hnonzero : kept.code ≠ 0 := by
    rw [show kept.code = 1 from hone]
    decide
  obtain ⟨-, hasked, -, -⟩ :=
    run_all_or_nothing ["render", "t", "-o", "t", "-h"] .empty before Topic.text
  exact ⟨hcode, hstdout, hrewritten, hone, hsilent, hstderr, hunchanged hnonzero,
    (hasked .render rfl).2⟩

end Outcome
end Stencil
