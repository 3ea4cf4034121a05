import Stencil.Proofs.Atomicity
import Stencil.Proofs.Codecs
import Stencil.Proofs.ErrorSpans
import Stencil.Proofs.Locations

namespace Stencil

/-- A path and a sigil can be given to every command, whatever they are. -/
theorem Settings.read_sigil_path (topic : Topic) (takes : Flag → Bool)
    (htakes : takes .sigil = true) (path : String) (sigil : Char) :
    read topic takes {} ["--sigil", String.singleton sigil, "--", path] =
      .ok { path := some path, sigil := some sigil } := by
  have hsigil : Argument.read "--sigil".toList = .option (some .sigil) none := rfl
  have hvalue : Argument.read (String.singleton sigil).toList = .positional := by
    rw [String.toList_singleton]
    unfold Argument.read
    split <;> simp_all
  have hset : set {} .sigil (String.singleton sigil) = .ok { sigil := some sigil } := by
    simp [set]
  have hrest : readPositional { sigil := some sigil } [path] =
      .ok { path := some path, sigil := some sigil } := rfl
  exact read_of_reads topic (.detached hsigil htakes hvalue hset (.terminator rfl hrest))

theorem Command.ofArguments_sigil_path (path : String) (sigil : Char) :
    let rest := ["--sigil", String.singleton sigil, "--", path]
    ofArguments ("check" :: rest) = .ok ⟨.check, path, ⟨sigil⟩⟩ ∧
    ofArguments ("ast" :: rest) = .ok ⟨.tree, path, ⟨sigil⟩⟩ ∧
    ofArguments ("render" :: rest) = .ok ⟨.render [] [] none, path, ⟨sigil⟩⟩ ∧
    ofArguments ("tokens" :: rest) = .ok ⟨.tokens, path, ⟨sigil⟩⟩ := by
  have hsigil (topic : Topic) := Settings.read_sigil_path topic (· == .sigil) rfl path sigil
  have hall := Settings.read_sigil_path .render (fun _ => true) rfl path sigil
  simp only [ofArguments, hsigil, hall]
  exact ⟨rfl, rfl, rfl, rfl⟩

/-- Tokens up to the end of a source, or up to the first error and no further. -/
theorem TokenStream.items_cases (sigil : Char) (source : String) :
    ∃ (ts : List (Spanned Token)) (rest : List TokenStream.Item),
      (start sigil source).items = ts.map .ok ++ rest ∧
        (rest = [] ∧ Token.ofSource sigil source = .ok ts ∨
          ∃ e, rest = [.error e] ∧ Token.ofSource sigil source = .error e) := by
  cases h : Token.ofSource sigil source with
  | ok ts => exact ⟨ts, [], by simpa using collect_eq_ok_iff.1 h, .inl ⟨rfl, rfl⟩⟩
  | error e =>
    obtain ⟨ts, rest, hitems⟩ := collect_eq_error_iff.1 h
    have hlast := (tiles_of_lexed (lexed_start sigil source) [] rfl).error_last _ _ _ hitems
    rw [hlast.1] at hitems
    exact ⟨ts, [.error e], hitems, .inr ⟨e, rfl, rfl⟩⟩

theorem Token.listing_eq_join (ts : List Token) :
    listing ts = String.join (ts.map fun t => t.label ++ "\n") := by
  induction ts with
  | nil => rfl
  | cons t ts ih => rw [listing, ih, List.map_cons, String.join_cons]

/-- What is listed of items: the tokens before an error. -/
theorem TokenStream.listing_items {items rest : List Item} {ts : List (Spanned Token)}
    (hitems : items = ts.map .ok ++ rest) (hrest : rest = [] ∨ ∃ e, rest = [.error e]) :
    Token.listing (items.filterMap fun item => item.toOption.map (·.value)) =
      String.join (ts.map fun t => t.value.label ++ "\n") := by
  have hvalues : items.filterMap (fun item => item.toOption.map (·.value)) = ts.map (·.value) := by
    obtain rfl | ⟨e, rfl⟩ := hrest <;> simp [hitems, List.filterMap_map, Except.toOption]
  rw [hvalues, Token.listing_eq_join, List.map_map]
  rfl

theorem Template.clamp_of_error {options : Options} {source : String} {e : Spanned TemplateError}
    (h : parse options source = .error e) : e.span.clamp (Text.bytes source.toList) = e.span := by
  obtain ⟨front, text, back, rfl, hspan, -, -⟩ :=
    exists_explanation (Reading.reported_of_runItems (parse_eq_error_iff.1 h))
  rw [hspan]
  apply Span.clamp_of_le
  · simp only [String.toList_append, Text.bytes_append]
    omega
  · simp only [String.toList_append, Text.bytes_append]
    omega

theorem Template.parse_of_lexical {options : Options} {source : String} {e : Spanned LexicalError}
    (h : Token.ofSource options.sigil source = .error e) :
    parse options source = .error (e.map .lexical) := by
  rw [parse, h]

/-- What the parser says of tokens is never a lexical error. -/
theorem Template.parse_ne_lexical {options : Options} {source : String} {ts : List (Spanned Token)}
    (h : Token.ofSource options.sigil source = .ok ts) (e : LexicalError) (span : Span) :
    parse options source ≠ .error ⟨.lexical e, span⟩ := by
  intro hparse
  rw [parse, h] at hparse
  cases hnode : Node.parse ts <;> simp [hnode, Spanned.map] at hparse

/-- The report on a template says where its error is. -/
theorem Command.names_failReport {options : Options} {path source : String}
    {e : Spanned TemplateError} (h : Template.parse options source = .error e) {line column : Nat}
    (hplace : Report.location source.toList e.span = (line, column)) :
    Report.Names (displayName path) e line column (failReport path source e) := by
  refine Report.names_snippet ?_
  rw [Template.clamp_of_error h, hplace]

namespace Outcome
open Command

variable {arguments : List String} {path source : String} {options : Options} {stdin : ByteArray}
  {store : Store}

theorem run_check (h : Command.ofArguments arguments = .ok ⟨.check, path, options⟩)
    (hsource : Command.source store.read stdin ⟨.check, path, options⟩ = .ok source) :
    run arguments stdin store =
      match Template.parse options source with
      | .ok _ => ⟨0, "[]\n", "", store⟩
      | .error e => ⟨1, (Json.array [(Diagnosis.ofError source.toList e).toJson]).pretty ++ "\n",
        "Invalid template\n", store⟩ := by
  rw [run_of_command h]
  simp only [reply, hsource, check]
  cases Template.parse options source <;> rfl

theorem run_tree (h : Command.ofArguments arguments = .ok ⟨.tree, path, options⟩)
    (hsource : Command.source store.read stdin ⟨.tree, path, options⟩ = .ok source) :
    run arguments stdin store =
      match Template.parse options source with
      | .ok t => ⟨0, t.root.toJson.pretty ++ "\n", "", store⟩
      | .error e => ⟨1, "", failReport path source e, store⟩ := by
  rw [run_of_command h]
  simp only [reply, hsource, showTree]
  cases Template.parse options source <;> rfl

theorem run_render (h : Command.ofArguments arguments = .ok ⟨.render [] [] none, path, options⟩)
    (hsource : Command.source store.read stdin ⟨.render [] [] none, path, options⟩ = .ok source) :
    run arguments stdin store =
      match Template.parse options source with
      | .ok t => ⟨0, t.render [], "", store⟩
      | .error e => ⟨1, "", failReport path source e, store⟩ := by
  rw [run_of_command h]
  simp only [reply, hsource, render, loadAll, Template.renderSource]
  cases Template.parse options source <;> rfl

theorem run_tokens (h : Command.ofArguments arguments = .ok ⟨.tokens, path, options⟩)
    (hsource : Command.source store.read stdin ⟨.tokens, path, options⟩ = .ok source) :
    ∃ (ts : List (Spanned Token)) (rest : List TokenStream.Item),
      (TokenStream.start options.sigil source).items = ts.map .ok ++ rest ∧
        let listing := String.join (ts.map fun t => t.value.label ++ "\n")
        (rest = [] ∧ Token.ofSource options.sigil source = .ok ts ∧
          run arguments stdin store = ⟨0, listing, "", store⟩ ∨
        ∃ e, rest = [.error e] ∧ Token.ofSource options.sigil source = .error e ∧
          run arguments stdin store =
            ⟨1, listing, failReport path source (e.map .lexical), store⟩) := by
  obtain ⟨ts, rest, hitems, hcases⟩ := TokenStream.items_cases options.sigil source
  refine ⟨ts, rest, hitems, ?_⟩
  rw [run_of_command h]
  rcases hcases with ⟨rfl, hok⟩ | ⟨e, rfl, herror⟩
  · refine .inl ⟨rfl, hok, ?_⟩
    rw [Token.ofSource] at hok
    simp only [reply, hsource, listTokens, hok]
    rw [TokenStream.listing_items hitems (.inl rfl)]
    rfl
  · refine .inr ⟨e, rfl, herror, ?_⟩
    rw [Token.ofSource] at herror
    simp only [reply, hsource, listTokens, herror]
    rw [TokenStream.listing_items hitems (.inr ⟨e, rfl⟩)]
    rfl

/-- The commands have one verdict on a template, and one error to report. -/
theorem verdicts_agree {checking showing rendering listing : List String}
    (hcheck : Command.ofArguments checking = .ok ⟨.check, path, options⟩)
    (htree : Command.ofArguments showing = .ok ⟨.tree, path, options⟩)
    (hrender : Command.ofArguments rendering = .ok ⟨.render [] [] none, path, options⟩)
    (htokens : Command.ofArguments listing = .ok ⟨.tokens, path, options⟩)
    (hsource : Command.source store.read stdin ⟨.check, path, options⟩ = .ok source) :
    let checked := run checking stdin store
    let shown := run showing stdin store
    let rendered := run rendering stdin store
    let listed := run listing stdin store
    ((checked.code = 0 ↔ shown.code = 0) ∧ (shown.code = 0 ↔ rendered.code = 0)) ∧
    (rendered.code = 0 → Json.read checked.stdout = some (.array [])) ∧
    (rendered.code ≠ 0 → ∃ e, Template.parse options source = .error e ∧
      shown.stdout = "" ∧ rendered.stdout = "" ∧
      shown.stderr = failReport path source e ∧ rendered.stderr = failReport path source e ∧
      (∀ line column, Report.location source.toList e.span = (line, column) →
        Report.Names (displayName path) e line column rendered.stderr) ∧
      ∃ d : Diagnosis, checked.stdout = (Json.array [d.toJson]).pretty ++ "\n" ∧
        Json.read checked.stdout = some (.array [d.toJson]) ∧
        d.message = e.value.message ∧
        d.range = ⟨Position.ofOffset source.toList e.span.start,
          Position.ofOffset source.toList e.span.stop⟩) ∧
    (listed.code ≠ 0 ↔ ∃ e span, Template.parse options source = .error ⟨.lexical e, span⟩) ∧
    (listed.code ≠ 0 → listed.stderr = rendered.stderr) ∧
    ∃ (ts : List (Spanned Token)) (rest : List TokenStream.Item),
      (TokenStream.start options.sigil source).items = ts.map .ok ++ rest ∧
      (rest = [] ∨ ∃ e, rest = [.error e]) ∧
      listed.stdout = String.join (ts.map fun t => t.value.label ++ "\n") := by
  intro checked shown rendered listed
  have hchecked := run_check hcheck hsource
  have hshown := run_tree htree hsource
  have hrendered := run_render hrender hsource
  have hone : (1 : UInt32) ≠ 0 := by decide
  refine ⟨?verdicts, ?accepted, ?rejected, ?_⟩
  case verdicts =>
    simp only [checked, shown, rendered, hchecked, hshown, hrendered]
    cases Template.parse options source <;> simp [hone]
  case accepted =>
    intro hcode
    simp only [checked, rendered, hchecked, hrendered] at hcode ⊢
    cases hparse : Template.parse options source with
    | ok t => exact Diagnosis.read_pretty []
    | error e => simp [hparse, hone] at hcode
  case rejected =>
    intro hcode
    simp only [checked, shown, rendered, hchecked, hshown, hrendered] at hcode ⊢
    cases hparse : Template.parse options source with
    | ok t => simp [hparse] at hcode
    | error e =>
      refine ⟨e, rfl, rfl, rfl, rfl, rfl, fun _ _ => names_failReport hparse,
        Diagnosis.ofError source.toList e, rfl, Diagnosis.read_pretty [_], rfl, ?_⟩
      simp only [Diagnosis.ofError, Template.clamp_of_error hparse]
  -- the listing goes by the tokens alone, so what the parser says does not matter to it
  obtain ⟨ts, rest, hitems, ⟨rfl, htokensOk, hlisted⟩ | ⟨e, rfl, htokensError, hlisted⟩⟩ :=
    run_tokens htokens hsource
  · have hlexical : ¬∃ e span, Template.parse options source = .error ⟨.lexical e, span⟩ := by
      rintro ⟨e, span, hparse⟩
      exact Template.parse_ne_lexical htokensOk e span hparse
    refine ⟨?_, ?_, ts, [], hitems, .inl rfl, ?_⟩
    · simp only [listed, hlisted, ne_eq, not_true_eq_false, hlexical]
    · intro hcode
      simp [listed, hlisted] at hcode
    · simp only [listed, hlisted]
  · have hparse := Template.parse_of_lexical htokensError
    refine ⟨?_, ?_, ts, [.error e], hitems, .inr ⟨e, rfl⟩, ?_⟩
    · simp only [listed, hlisted, ne_eq, hone, not_false_eq_true, true_iff]
      exact ⟨e.value, e.span, hparse⟩
    · intro hcode
      simp only [listed, rendered, hlisted, hrendered, hparse]
    · simp only [listed, hlisted]

/-- A condition is left open before a bracket is: only what the lexer says is reported. -/
theorem verdicts_agree_open_bracket :
    let source := "$if(x)$a$\x7bb"
    let e : Spanned TemplateError := ⟨.lexical (.unterminatedDirective '}'), ⟨8, 11⟩⟩
    let rest := ["--sigil", "$", "--", "-"]
    let store : Store := ⟨[]⟩
    let checked := run ("check" :: rest) source.toUTF8 store
    let shown := run ("ast" :: rest) source.toUTF8 store
    let rendered := run ("render" :: rest) source.toUTF8 store
    let listed := run ("tokens" :: rest) source.toUTF8 store
    Command.source store.read source.toUTF8 ⟨.check, "-", ⟨'$'⟩⟩ = .ok source ∧
      (checked.code = 0 ↔ shown.code = 0) ∧ (shown.code = 0 ↔ rendered.code = 0) ∧
      rendered.code ≠ 0 ∧ shown.stdout = "" ∧ rendered.stdout = "" ∧
      shown.stderr = rendered.stderr ∧ Report.Names "<stdin>" e 1 9 rendered.stderr ∧
      (∃ d : Diagnosis, Json.read checked.stdout = some (.array [d.toJson]) ∧
        d.message = e.value.message ∧ d.range = ⟨⟨0, 8⟩, ⟨0, 11⟩⟩) ∧
      listed.code ≠ 0 ∧ listed.stderr = rendered.stderr ∧
      listed.stdout = "Directive<if(x)>\nPlain<a>\n" := by
  intro source e rest store checked shown rendered listed
  have hscan : Automaton.scan '$' "$if(x)$a$\x7bb".toList =
      [.ok ⟨.directive "if(x)", ⟨0, 7⟩⟩, .ok ⟨.plain "a", ⟨7, 8⟩⟩,
        .error ⟨.unterminatedDirective '}', ⟨8, 11⟩⟩] := by
    rfl
  have hitems := Automaton.scan_of_lexed (TokenStream.lexed_start '$' source)
  have hparse : Template.parse ⟨'$'⟩ source = .error e := by
    rw [Template.parse_eq_error_iff, ← hitems, hscan]
    rfl
  have hsource : Command.source store.read source.toUTF8 ⟨.check, "-", ⟨'$'⟩⟩ = .ok source :=
    decodeText_toUTF8 source
  obtain ⟨hcheck, htree, hrender, htokens⟩ := Command.ofArguments_sigil_path "-" '$'
  have hcode : rendered.code ≠ 0 := by
    have hrun := run_render hrender hsource
    rw [hparse] at hrun
    have hrendered : rendered = ⟨1, "", failReport "-" source e, store⟩ := hrun
    rw [hrendered]
    decide
  obtain ⟨hverdicts, -, hrejected, hlexical, hreport, ts, others, hsplit, hothers, hlisted⟩ :=
    verdicts_agree hcheck htree hrender htokens hsource
  obtain ⟨found, hfound, htreeText, hrenderText, htreeReport, hrenderReport, hnames, d, -, hread,
    hmessage, hrange⟩ := hrejected hcode
  cases hparse.symm.trans hfound
  have hlistCode : listed.code ≠ 0 := hlexical.2 ⟨_, _, hparse⟩
  refine ⟨hsource, hverdicts.1, hverdicts.2, hcode, htreeText, hrenderText,
    htreeReport.trans hrenderReport.symm, hnames 1 9 (by decide), ⟨d, hread, hmessage, ?_⟩, hlistCode,
    hreport hlistCode, ?_⟩
  · rw [hrange]
    decide
  · refine hlisted.trans ?_
    rw [← TokenStream.listing_items hsplit hothers, ← hitems, hscan]
    rfl

end Outcome
end Stencil
