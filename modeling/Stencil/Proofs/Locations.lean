import Mathlib.Data.List.Forall2
import Stencil.Proofs.Positions
import Stencil.Report

namespace Stencil

namespace Text

/-- How many characters of a text end within its first bytes. -/
def endingWithin (text : List Char) (count : Nat) : Nat :=
  (List.range text.length).countP fun i => bytes (text.take (i + 1)) ≤ count

theorem endingWithin_cons (c : Char) (cs : List Char) (count : Nat) :
    endingWithin (c :: cs) count =
      if c.utf8Size ≤ count then endingWithin cs (count - c.utf8Size) + 1 else 0 := by
  by_cases hsize : c.utf8Size ≤ count
  · have hhead : decide (bytes ((c :: cs).take (0 + 1)) ≤ count) = true := by simpa using hsize
    have htail : (fun i => decide (bytes ((c :: cs).take (i + 1)) ≤ count)) ∘ Nat.succ =
        fun i => decide (bytes (cs.take (i + 1)) ≤ count - c.utf8Size) := by
      funext i
      have hbytes : bytes ((c :: cs).take (i + 1 + 1)) = c.utf8Size + bytes (cs.take (i + 1)) := rfl
      refine decide_eq_decide.2 ?_
      rw [Nat.succ_eq_add_one, hbytes]
      omega
    rw [endingWithin, List.length_cons, List.range_succ_eq_map, List.countP_cons, if_pos hhead,
      List.countP_map, htail, if_pos hsize, endingWithin]
  · rw [if_neg hsize, endingWithin, List.countP_eq_zero]
    intro i _
    have hbytes : bytes ((c :: cs).take (i + 1)) = c.utf8Size + bytes (cs.take i) := rfl
    rw [decide_eq_true_iff, hbytes]
    omega

theorem utf8Size_of_ascii {c : Char} {b : UInt8} (hb : b ∈ String.utf8EncodeChar c) (h : b < 128) :
    c.utf8Size = 1 := by
  have hcode := toNat_of_mem_encode hb h
  have hlow : b.toNat < 128 := h
  have hval : c.val.toNat ≤ 127 := by
    rw [← Char.toNat_val] at hcode
    omega
  exact Char.utf8Size_eq_one_iff.2 hval

theorem endingWithin_le (text : List Char) (count : Nat) : endingWithin text count ≤ count := by
  induction text generalizing count with
  | nil => exact Nat.zero_le _
  | cons c cs ih =>
    have hsize := c.utf8Size_pos
    have hrest := ih (count - c.utf8Size)
    rw [endingWithin_cons]
    split
    · omega
    · exact Nat.zero_le _

/-- Where all bytes are ASCII, characters are bytes. -/
theorem endingWithin_of_ascii {text : List Char} {count : Nat} (hcount : count ≤ bytes text)
    (h : ∀ b ∈ (utf8 text).take count, b < 128) : endingWithin text count = count := by
  induction text generalizing count with
  | nil => exact (Nat.le_zero.1 hcount).symm
  | cons c cs ih =>
    rw [endingWithin_cons]
    cases count with
    | zero => exact if_neg (Nat.not_le.2 c.utf8Size_pos)
    | succ count =>
      obtain ⟨b, rest, hencode⟩ :=
        List.exists_cons_of_ne_nil (String.utf8EncodeChar_ne_nil : String.utf8EncodeChar c ≠ [])
      have hascii : b < 128 := h b (by simp [hencode])
      have hsize : c.utf8Size = 1 := utf8Size_of_ascii (by simp [hencode]) hascii
      rw [utf8_cons, String.utf8EncodeChar_eq_singleton hsize] at h
      rw [bytes_cons, hsize] at hcount
      have hrest : endingWithin cs count = count :=
        ih (by omega) fun b hb => h b (List.mem_cons_of_mem _ hb)
      rw [hsize, if_pos (Nat.succ_le_succ (Nat.zero_le _)), Nat.add_sub_cancel, hrest]

/-- A text is a line without its newline, or a line, a newline and a text. -/
theorem lines_induction {P : List Char → Prop} (last : ∀ text, '\n' ∉ text → P text)
    (line : ∀ text rest, '\n' ∉ text → P rest → P (text ++ '\n' :: rest)) (source : List Char) :
    P source := by
  induction hlength : source.length using Nat.strongRecOn generalizing source with
  | ind n ih =>
    cases hcut : cut? '\n' source with
    | none => exact last source (cut?_eq_none_iff.1 hcut)
    | some pair =>
      obtain ⟨text, rest⟩ := pair
      obtain ⟨rfl, htext⟩ := cut?_eq_some_iff.1 hcut
      have hshorter : rest.length < n := by
        rw [← hlength, List.length_append, List.length_cons]
        omega
      exact line text rest htext (ih rest.length hshorter rest rfl)

end Text

section Lines

variable {text : List Char}

/-- An offset in a line or at its end is on this line, whatever comes after it. -/
theorem lineAndByte_of_le (h : '\n' ∉ text) (rest : List Char) (line byte : Nat) {offset : Nat}
    (hoffset : offset ≤ Text.bytes text) :
    lineAndByte line byte (text ++ rest) offset = (line, byte + offset) := by
  induction text generalizing byte offset with
  | nil =>
    obtain rfl := Nat.le_zero.1 hoffset
    cases rest with
    | nil => rfl
    | cons c cs => exact if_pos c.utf8Size_pos
  | cons c cs ih =>
    obtain ⟨hc, hcs⟩ : '\n' ≠ c ∧ '\n' ∉ cs := by simpa using h
    rw [Text.bytes_cons] at hoffset
    rw [List.cons_append, lineAndByte]
    split
    · rfl
    · rw [if_neg (Ne.symm hc), ih hcs _ (by omega)]
      congr 1
      omega

theorem lineAndByte_of_lt (h : '\n' ∉ text) (rest : List Char) (line byte : Nat) {offset : Nat}
    (hoffset : Text.bytes text < offset) :
    lineAndByte line byte (text ++ '\n' :: rest) offset =
      lineAndByte (line + 1) 0 rest (offset - (Text.bytes text + 1)) := by
  induction text generalizing byte offset with
  | nil =>
    have hsize : ¬ offset < '\n'.utf8Size := Nat.not_lt.2 hoffset
    rw [List.nil_append, lineAndByte, if_neg hsize, if_pos rfl]
    rfl
  | cons c cs ih =>
    obtain ⟨hc, hcs⟩ : '\n' ≠ c ∧ '\n' ∉ cs := by simpa using h
    rw [Text.bytes_cons] at hoffset ⊢
    rw [List.cons_append, lineAndByte, if_neg (by omega), if_neg (Ne.symm hc), ih hcs _ (by omega)]
    congr 1
    omega

end Lines

namespace Report

theorem charsWithin_eq (text : List Char) (count : Nat) :
    charsWithin text count = Text.endingWithin text count := by
  induction text generalizing count with
  | nil => rfl
  | cons c cs ih => rw [charsWithin, Text.endingWithin_cons, ih]

variable {offset : Nat}

theorem lineAt_singleton {line : Line} (h : line.start ≤ offset) : lineAt offset [line] = line := by
  simp [lineAt, h]

theorem lineAt_of_lt {line next : Line} {rest : List Line} (h : line.start ≤ offset)
    (hnext : offset < next.start) : lineAt offset (line :: next :: rest) = line := by
  simp [lineAt, h, Nat.not_le.2 hnext]

theorem lineAt_of_le {line next : Line} {rest : List Line} (h : line.start ≤ offset)
    (hnext : next.start ≤ offset) :
    lineAt offset (line :: next :: rest) = lineAt offset (next :: rest) := by
  simp [lineAt, h, hnext]

/-- The line that a report shows for an offset is the line that a diagnosis counts, and begins as many
    bytes before the offset as a diagnosis says. -/
theorem lineAt_linesFrom {source : List Char} {offset : Nat} (h : offset ≤ Text.bytes source)
    (number start line : Nat) :
    ∃ index text byte, lineAndByte line 0 source offset = (line + index, byte) ∧
      (Text.split '\n' source)[index]? = some text ∧ byte ≤ Text.bytes text ∧ byte ≤ offset ∧
      lineAt (start + offset) (linesFrom number start (Text.split '\n' source)) =
        ⟨number + index, start + (offset - byte), text⟩ := by
  induction source using Text.lines_induction generalizing offset number start line with
  | last text htext =>
    refine ⟨0, text, offset, ?_, ?_, h, Nat.le_refl _, ?_⟩
    · have hcount := lineAndByte_of_le htext [] line 0 h
      rwa [List.append_nil, Nat.zero_add] at hcount
    · rw [Text.split_of_not_mem htext]
      rfl
    · rw [Text.split_of_not_mem htext, Nat.sub_self]
      exact lineAt_singleton (Nat.le_add_right start offset)
  | line text rest htext ih =>
    obtain ⟨piece, pieces, hpieces⟩ := List.exists_cons_of_ne_nil (Text.split_ne_nil '\n' rest)
    rw [Text.split_append htext]
    by_cases hoffset : offset ≤ Text.bytes text
    · refine ⟨0, text, offset, ?_, rfl, hoffset, Nat.le_refl _, ?_⟩
      · rw [lineAndByte_of_le htext _ line 0 hoffset, Nat.zero_add, Nat.add_zero]
      · rw [hpieces, Nat.sub_self]
        exact lineAt_of_lt (Nat.le_add_right start offset) (by show _ < _ + _; omega)
    · have hrest : offset - (Text.bytes text + 1) ≤ Text.bytes rest := by
        have hone : '\n'.utf8Size = 1 := rfl
        rw [Text.bytes_append, Text.bytes_cons, hone] at h
        omega
      obtain ⟨index, found, byte, hcount, hfound, hbyte, hle, hline⟩ :=
        ih hrest (number + 1) (start + Text.bytes text + 1) (line + 1)
      refine ⟨index + 1, found, byte, ?_, ?_, hbyte, by omega, ?_⟩
      · rw [lineAndByte_of_lt htext rest line 0 (Nat.not_le.1 hoffset), hcount]
        congr 1
        omega
      · exact hfound
      · have hstart : start + Text.bytes text + 1 + (offset - (Text.bytes text + 1)) =
            start + offset := by omega
        rw [hstart, hpieces] at hline
        rw [hpieces, linesFrom, linesFrom,
          lineAt_of_le (Nat.le_add_right start offset) (by show _ + _ ≤ _; omega)]
        refine hline.trans ?_
        congr 1 <;> omega

theorem location_clamp (source : List Char) (span : Span) :
    ∃ line byte text,
      lineAndByte 0 0 source (min span.start (Text.bytes source)) = (line, byte) ∧
        (Text.split '\n' source)[line]? = some text ∧ byte ≤ Text.bytes text ∧
        location source (span.clamp (Text.bytes source)) =
          (line + 1, Text.endingWithin text byte + 1) := by
  obtain ⟨line, text, byte, hcount, htext, hbyte, hle, hline⟩ :=
    lineAt_linesFrom (Nat.min_le_right span.start (Text.bytes source)) 1 0 0
  rw [Nat.zero_add] at hcount hline
  refine ⟨line, byte, text, hcount, htext, hbyte, ?_⟩
  have hcolumn : min span.start (Text.bytes source) -
      (0 + (min span.start (Text.bytes source) - byte)) = byte := by omega
  rw [location, lines, Span.clamp, hline, Line.column, hcolumn, charsWithin_eq, Nat.add_comm 1 line]

/-- The report on one error. -/
def snippet (name source : String) (e : Spanned TemplateError) : String := ofErrors name source [e]

/-- A snippet says what is wrong, and on its next line where: a name, a line and a column. -/
def Names (name : String) (e : Spanned TemplateError) (line column : Nat) (snippet : String) : Prop :=
  ∃ blanks below : String, (∀ c ∈ blanks.toList, c = ' ') ∧
    snippet = "error[" ++ e.value.kind ++ "]: " ++ e.value.detail ++ "\n" ++ blanks ++ "┌─ " ++
      name ++ ":" ++ toString line ++ ":" ++ toString column ++ "\n" ++ below

theorem names_snippet {name source : String} {e : Spanned TemplateError} {line column : Nat}
    (h : location source.toList (e.span.clamp (Text.bytes source.toList)) = (line, column)) :
    Names name e line column (snippet name source e) := by
  obtain ⟨pad, body, hlines⟩ : ∃ pad body, ofError name source.toList e =
      ("error[" ++ e.value.kind ++ "]: " ++ e.value.detail).toList ::
        (margin pad ++ ['┌', '─', ' '] ++
          (name ++ ":" ++ toString line ++ ":" ++ toString column).toList) :: body := by
    simp only [ofError, h]
    exact ⟨_, _, rfl⟩
  refine ⟨String.ofList (margin pad), String.ofList (body.flatMap (· ++ ['\n'])), ?_, ?_⟩
  · intro c hc
    rw [String.toList_ofList] at hc
    exact List.eq_of_mem_replicate hc
  · rw [snippet, ofErrors, List.flatMap_singleton, hlines, ← String.toList_inj]
    simp

theorem toDigits_injective : Function.Injective (Nat.toDigits 10) := by
  intro n m h
  have hvalue := congrArg (Nat.ofDigitChars 10 · 0) h
  simpa only [Nat.ofDigitChars_ten_toDigits] using hvalue

/-- The place can be told from a snippet. -/
theorem Names.unique {name text : String} {e : Spanned TemplateError} {line column line' column' : Nat}
    (h : Names name e line column text) (h' : Names name e line' column' text) :
    line = line' ∧ column = column' := by
  obtain ⟨blanks, below, hblanks, htext⟩ := h
  obtain ⟨blanks', below', hblanks', htext'⟩ := h'
  have hdigits {c : Char} (hc : c.isDigit = false) (n : Nat) : c ∉ Nat.toDigits 10 n := by
    intro hmem
    have hdigit := Nat.isDigit_of_mem_toDigits (by decide) (by decide) hmem
    exact absurd hdigit (by simp [hc])
  have hcorner {blanks : String} (h : ∀ c ∈ blanks.toList, c = ' ') : '┌' ∉ blanks.toList :=
    fun hmem => absurd (h _ hmem) (by decide)
  have hlist := congrArg String.toList (htext.symm.trans htext')
  have hplace : "┌─ ".toList = ['┌', '─', ' '] := rfl
  have hcolon : ":".toList = [':'] := rfl
  have hnewline : "\n".toList = ['\n'] := rfl
  simp only [String.toList_append, List.append_assoc, List.append_cancel_left_eq, hplace, hcolon,
    hnewline, Nat.toString_eq_repr, Nat.toList_repr, List.cons_append, List.nil_append] at hlist
  -- the blanks end at the corner, the line at a colon, and the column where the next line starts
  obtain ⟨-, hname⟩ := Text.append_cons_inj (hcorner hblanks) (hcorner hblanks') (List.cons.inj hlist).2
  simp only [List.cons.injEq, true_and, List.append_cancel_left_eq] at hname
  obtain ⟨hline, hrest⟩ := Text.append_cons_inj (hdigits rfl line) (hdigits rfl line') hname
  obtain ⟨hcolumn, -⟩ := Text.append_cons_inj (hdigits rfl column) (hdigits rfl column') hrest
  exact ⟨toDigits_injective hline, toDigits_injective hcolumn⟩

theorem ofErrors_eq_join (name source : String) (es : List (Spanned TemplateError)) :
    ofErrors name source es = String.join (es.map (snippet name source)) := by
  induction es with
  | nil => rfl
  | cons e es ih =>
    rw [List.map_cons, String.join_cons, ← ih, snippet, ofErrors, ofErrors, ofErrors,
      List.flatMap_cons, List.flatMap_append, String.ofList_append, List.flatMap_singleton]

/-- A line and a column, counted from one, and a position, counted from zero, name the same place of
    a line. -/
structure SamePlace (source : String) (line column : Nat) (p : Position) (text : List Char) :
    Prop where
  line_eq : line = p.line.toNat + 1
  text_eq : (Text.split '\n' source.toList)[p.line.toNat]? = some text
  byte_le : p.character.toNat ≤ Text.bytes text
  column_eq : column = Text.endingWithin text p.character.toNat + 1
  column_le : column - 1 ≤ p.character.toNat
  ascii : (∀ b ∈ (Text.utf8 text).take p.character.toNat, b < 128) →
    column = p.character.toNat + 1

theorem exists_samePlace {source : String} (hsize : source.utf8ByteSize < UInt32.size)
    (e : Spanned TemplateError) :
    ∃ line column text,
      location source.toList (e.span.clamp (Text.bytes source.toList)) = (line, column) ∧
        SamePlace source line column (Diagnosis.ofError source.toList e).range.start text := by
  obtain ⟨line, byte, text, hcount, htext, hbyte, hlocation⟩ := location_clamp source.toList e.span
  have hstart : (Diagnosis.ofError source.toList e).range.start =
      Position.ofOffset source.toList (min e.span.start source.utf8ByteSize) := by
    rw [← Text.bytes_toList]
    rfl
  obtain ⟨hline, hcharacter⟩ :=
    Position.toNat_ofOffset hsize (Nat.min_le_right e.span.start source.utf8ByteSize)
  rw [Text.bytes_toList] at hcount
  rw [hcount] at hline hcharacter
  refine ⟨line + 1, Text.endingWithin text byte + 1, text, hlocation, ?_⟩
  rw [hstart]
  constructor
  case line_eq => rw [hline]
  case text_eq => rw [hline, htext]
  case byte_le => rwa [hcharacter]
  case column_eq => rw [hcharacter]
  case column_le =>
    rw [hcharacter, Nat.add_sub_cancel]
    exact Text.endingWithin_le text byte
  case ascii =>
    rw [hcharacter]
    exact fun h => congrArg (· + 1) (Text.endingWithin_of_ascii hbyte h)

/-- The report and the diagnoses: for each error in order a snippet and a diagnosis, and the one place
    that the snippet names is that of the diagnosis and of the offset. -/
theorem ofErrors_samePlace (name source : String) (hsize : source.utf8ByteSize < UInt32.size)
    (es : List (Spanned TemplateError)) :
    ofErrors name source es = String.join (es.map (snippet name source)) ∧
      List.Forall₂ (fun e d =>
          d.range.start.Exact source (min e.span.start source.utf8ByteSize) ∧
          ∃ line column text, Names name e line column (snippet name source e) ∧
            (∀ line' column', Names name e line' column' (snippet name source e) →
              line' = line ∧ column' = column) ∧
            SamePlace source line column d.range.start text)
        es (Diagnosis.ofErrors source es) := by
  refine ⟨ofErrors_eq_join name source es, ?_⟩
  rw [Diagnosis.ofErrors, List.forall₂_map_right_iff]
  refine List.forall₂_same.2 fun e _ => ⟨(Diagnosis.locates_ofError hsize e).start, ?_⟩
  obtain ⟨line, column, text, hlocation, hplace⟩ := exists_samePlace hsize e
  have hnames : Names name e line column (snippet name source e) := names_snippet hlocation
  exact ⟨line, column, text, hnames, fun _ _ h => h.unique hnames, hplace⟩

theorem location_of_not_mem {source : List Char} (h : '\n' ∉ source) (span : Span) :
    location source span = (1, Text.endingWithin source span.start + 1) := by
  have hlines : lines source = [⟨1, 0, source⟩] := by
    rw [lines, Text.split_of_not_mem h]
    rfl
  have hline : lineAt span.start [⟨1, 0, source⟩] = ⟨1, 0, source⟩ :=
    lineAt_singleton (Nat.zero_le span.start)
  rw [location, hlines, hline, Line.column, charsWithin_eq]
  rfl

/-- At the end of a line of 4 GiB: the byte is too large a number, and comes out as zero, but the column
    does not. -/
theorem column_beyond_character :
    let source := String.ofList (List.replicate UInt32.size 'a')
    let e : Spanned TemplateError :=
      ⟨.lexical (.unterminatedDirective '$'), ⟨UInt32.size, UInt32.size⟩⟩
    let p := (Diagnosis.ofError source.toList e).range.start
    e.span.start ≤ e.span.stop ∧ p = ⟨0, 0⟩ ∧
      Names "f" e 1 (UInt32.size + 1) (snippet "f" source e) ∧
      ∀ line column, Names "f" e line column (snippet "f" source e) →
        ¬ column - 1 ≤ p.character.toNat := by
  intro source e p
  have hsource : source.toList = List.replicate UInt32.size 'a' := String.toList_ofList
  have hline : '\n' ∉ source.toList := by
    rw [hsource]
    exact fun hmem => absurd (List.eq_of_mem_replicate hmem) (by decide)
  have hbytes : Text.bytes source.toList = UInt32.size := by
    rw [hsource, Text.bytes_replicate]
    rfl
  have hclamp : e.span.clamp (Text.bytes source.toList) = e.span :=
    Span.clamp_of_le (Nat.le_of_eq hbytes.symm) (Nat.le_of_eq hbytes.symm)
  have hcount : lineAndByte 0 0 source.toList UInt32.size = (0, 0 + UInt32.size) := by
    have hcount := lineAndByte_of_le hline [] 0 0 (Nat.le_of_eq hbytes.symm)
    rwa [List.append_nil] at hcount
  have hp : p = ⟨0, 0⟩ := by
    show Position.ofOffset source.toList (e.span.clamp (Text.bytes source.toList)).start = ⟨0, 0⟩
    rw [hclamp, Position.ofOffset, hcount]
    rfl
  have hascii : ∀ b ∈ (Text.utf8 source.toList).take UInt32.size, b < 128 := by
    intro b hb
    obtain ⟨c, hc, hencode⟩ := List.mem_flatMap.1 (List.mem_of_mem_take hb)
    rw [hsource] at hc
    obtain rfl := List.eq_of_mem_replicate hc
    obtain rfl : b = 97 := List.mem_singleton.1 hencode
    decide
  have hcolumn : Text.endingWithin source.toList UInt32.size = UInt32.size :=
    Text.endingWithin_of_ascii (Nat.le_of_eq hbytes.symm) hascii
  have hnames : Names "f" e 1 (UInt32.size + 1) (snippet "f" source e) := by
    refine names_snippet ?_
    rw [hclamp, location_of_not_mem hline, hcolumn]
  refine ⟨Nat.le_refl _, hp, hnames, ?_⟩
  intro line column h
  obtain ⟨-, rfl⟩ := h.unique hnames
  rw [hp]
  show ¬ UInt32.size + 1 - 1 ≤ 0
  decide

/-- An error from inside a character on, and one beyond the end. -/
theorem ofErrors_samePlace_insideCharacter :
    let source := "a\né$x"
    let inside : Spanned TemplateError := ⟨.lexical (.unterminatedDirective '$'), ⟨3, 6⟩⟩
    let beyond : Spanned TemplateError := ⟨.lexical (.unterminatedDirective '$'), ⟨9, 99⟩⟩
    source.utf8ByteSize < UInt32.size ∧
      (Diagnosis.ofErrors source [inside, beyond]).map (·.range.start) = [⟨1, 1⟩, ⟨1, 4⟩] ∧
      Names "f" inside 2 1 (snippet "f" source inside) ∧
      Names "f" beyond 2 4 (snippet "f" source beyond) := by
  intro source inside beyond
  have hsize : source.utf8ByteSize < UInt32.size := by decide
  have hlines : Text.split '\n' source.toList = ["a".toList, "é$x".toList] := by decide
  have hstart : (Diagnosis.ofError source.toList inside).range.start = ⟨1, 1⟩ := by decide
  have hend : (Diagnosis.ofError source.toList beyond).range.start = ⟨1, 4⟩ := by decide
  obtain ⟨-, hall⟩ := ofErrors_samePlace "f" source hsize [inside, beyond]
  obtain ⟨⟨-, line, column, text, hinside, -, hplace⟩, hrest⟩ := List.forall₂_cons.1 hall
  obtain ⟨⟨-, line', column', text', hbeyond, -, hplace'⟩, -⟩ := List.forall₂_cons.1 hrest
  rw [hstart] at hplace
  rw [hend] at hplace'
  obtain ⟨rfl, htext, -, rfl, -, -⟩ := hplace
  obtain ⟨rfl, htext', -, rfl, -, -⟩ := hplace'
  rw [hlines] at htext htext'
  cases htext
  cases htext'
  refine ⟨hsize, ?_, hinside, hbeyond⟩
  rw [← hstart, ← hend]
  rfl

end Report
end Stencil
