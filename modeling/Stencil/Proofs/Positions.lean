import Mathlib.Data.List.Forall2
import Mathlib.Data.Prod.Lex
import Mathlib.Order.Interval.Set.Defs
import Mathlib.Order.Monotone.Basic
import Stencil.Diagnosis

namespace Stencil

namespace Text

/-- The byte of a newline. No other character has it among its bytes. -/
def newline : UInt8 := 10

def newlinesBefore (offset : Nat) (text : List UInt8) : Nat := (text.take offset).count newline

/-- The byte at which a line starts, lines being counted from zero: the one behind as many newlines. -/
def lineStart : Nat → List UInt8 → Nat
  | 0, _ => 0
  | _ + 1, [] => 0
  | n + 1, b :: text => (if b = newline then lineStart n text else lineStart (n + 1) text) + 1

/-- A byte below 128 is a character of its own. -/
theorem toNat_of_mem_encode {c : Char} {b : UInt8} (hb : b ∈ String.utf8EncodeChar c) (h : b < 128) :
    c.toNat = b.toNat := by
  have hbyte {n : Nat} (hn : b = UInt8.ofNat n) : b.toNat = n % 256 := by
    rw [hn, UInt8.toNat_ofNat']
  have hlow : b.toNat < 128 := h
  unfold String.utf8EncodeChar at hb
  simp only at hb
  split at hb
  · have hmod := hbyte (List.mem_singleton.1 hb)
    have hcode : c.val.toNat = b.toNat := by omega
    exact hcode
  · -- a longer encoding has bytes from 128 on only
    have hlong {n : Nat} (hn : b = UInt8.ofNat n) (hfrom : 128 ≤ n) (hto : n < 256) : False := by
      have hmod := hbyte hn
      omega
    split at hb
    · simp only [List.mem_cons, List.not_mem_nil, or_false] at hb
      rcases hb with hb | hb <;> exact (hlong hb (by omega) (by omega)).elim
    · split at hb
      · simp only [List.mem_cons, List.not_mem_nil, or_false] at hb
        rcases hb with hb | hb | hb <;> exact (hlong hb (by omega) (by omega)).elim
      · simp only [List.mem_cons, List.not_mem_nil, or_false] at hb
        rcases hb with hb | hb | hb | hb <;> exact (hlong hb (by omega) (by omega)).elim

theorem newline_mem_encode {c : Char} (h : newline ∈ String.utf8EncodeChar c) : c = '\n' :=
  Char.toNat_inj.1 (toNat_of_mem_encode h (by decide))

theorem lineStart_append {before : List UInt8} (h : newline ∉ before) (n : Nat) (text : List UInt8) :
    lineStart (n + 1) (before ++ text) = lineStart (n + 1) text + before.length := by
  induction before with
  | nil => rfl
  | cons b before ih =>
    obtain ⟨hb, hbefore⟩ : newline ≠ b ∧ newline ∉ before := by simpa using h
    rw [List.cons_append, lineStart, if_neg (Ne.symm hb), ih hbefore, List.length_cons]
    omega

theorem lineStart_newline (n : Nat) (text : List UInt8) :
    lineStart (n + 1) (newline :: text) = lineStart n text + 1 := by
  rw [lineStart, if_pos rfl]

theorem newlinesBefore_newline (offset : Nat) (text : List UInt8) :
    newlinesBefore (offset + 1) (newline :: text) = newlinesBefore offset text + 1 := by
  rw [newlinesBefore, List.take_succ_cons, List.count_cons_self, newlinesBefore]

theorem newlinesBefore_append {before : List UInt8} (h : newline ∉ before) (text : List UInt8)
    {offset : Nat} (hoffset : before.length ≤ offset) :
    newlinesBefore offset (before ++ text) = newlinesBefore (offset - before.length) text := by
  rw [newlinesBefore, List.take_append, List.take_of_length_le hoffset, List.count_append,
    List.count_eq_zero.2 h, Nat.zero_add, newlinesBefore]

/-- The bytes of a character before an offset inside it are no newlines. -/
theorem newlinesBefore_encode {c : Char} {offset : Nat} (h : offset < c.utf8Size) (text : List UInt8) :
    newlinesBefore offset (String.utf8EncodeChar c ++ text) = 0 := by
  have hlen : offset ≤ (String.utf8EncodeChar c).length := by
    rw [String.length_utf8EncodeChar]
    exact Nat.le_of_lt h
  rw [newlinesBefore, List.take_append_of_le_length hlen, List.count_eq_zero]
  intro hmem
  obtain rfl := newline_mem_encode (List.mem_of_mem_take hmem)
  -- a newline is one byte, so that nothing is before an offset inside it
  obtain rfl : offset = 0 := Nat.lt_one_iff.1 h
  cases hmem

theorem newlinesBefore_le (offset : Nat) (text : List UInt8) : newlinesBefore offset text ≤ offset :=
  List.count_le_length.trans (List.length_take_le _ _)

theorem newlinesBefore_mono {offset later : Nat} (h : offset ≤ later) (text : List UInt8) :
    newlinesBefore offset text ≤ newlinesBefore later text :=
  (List.take_sublist_take_left h).count_le _

end Text

/-- Lines are counted by the newlines before an offset; the byte in the line is counted from where
    the line starts, or goes on from `byte` in the line that the text continues. -/
theorem lineAndByte_spec (line byte : Nat) (source : List Char) (offset : Nat) :
    (lineAndByte line byte source offset).1 = line + Text.newlinesBefore offset (Text.utf8 source) ∧
      Text.lineStart (Text.newlinesBefore offset (Text.utf8 source)) (Text.utf8 source) +
          (lineAndByte line byte source offset).2 =
        offset + if Text.newlinesBefore offset (Text.utf8 source) = 0 then byte else 0 := by
  fun_induction lineAndByte line byte source offset with
  | case1 line byte offset => simp [Text.newlinesBefore, Text.lineStart, Nat.add_comm]
  | case2 line byte c cs offset h =>
    rw [Text.utf8_cons, Text.newlinesBefore_encode h]
    simp [Text.lineStart, Nat.add_comm]
  | case3 line byte cs offset h ih =>
    obtain ⟨rest, rfl⟩ : ∃ rest, offset = rest + 1 := Nat.exists_eq_add_one.2 (Nat.not_lt.1 h)
    have hbytes : Text.utf8 ('\n' :: cs) = Text.newline :: Text.utf8 cs := rfl
    have hone : rest + 1 - '\n'.utf8Size = rest := rfl
    rw [hone] at ih ⊢
    obtain ⟨hline, hstart⟩ := ih
    rw [ite_self] at hstart
    rw [hbytes, Text.newlinesBefore_newline, Text.lineStart_newline, if_neg (Nat.succ_ne_zero _)]
    refine ⟨?_, ?_⟩
    · rw [hline]
      omega
    · omega
  | case4 line byte c cs offset h hc ih =>
    have hnone : Text.newline ∉ String.utf8EncodeChar c := fun hmem => hc (Text.newline_mem_encode hmem)
    have hlen : (String.utf8EncodeChar c).length = c.utf8Size := String.length_utf8EncodeChar c
    obtain ⟨hline, hstart⟩ := ih
    rw [Text.utf8_cons, Text.newlinesBefore_append hnone _ (by omega), hlen]
    refine ⟨hline, ?_⟩
    generalize Text.newlinesBefore (offset - c.utf8Size) (Text.utf8 cs) = lines at hstart ⊢
    cases lines with
    | zero =>
      simp only [Text.lineStart, if_true] at hstart ⊢
      omega
    | succ n =>
      rw [Text.lineStart_append hnone, hlen]
      rw [if_neg (Nat.succ_ne_zero n)] at hstart ⊢
      omega

namespace Position

/-- A position says where an offset is: on the line with as many newlines before the offset, and as
    many bytes behind the start of this line. -/
structure Exact (source : String) (offset : Nat) (p : Position) : Prop where
  line_eq : p.line.toNat = Text.newlinesBefore offset (Text.utf8 source.toList)
  start_add : Text.lineStart p.line.toNat (Text.utf8 source.toList) + p.character.toNat = offset

/-- Positions are ordered by their lines, and within a line by their bytes. -/
def key (p : Position) : ℕ ×ₗ ℕ := toLex (p.line.toNat, p.character.toNat)

variable {source : String} {offset later : Nat} {p q : Position}

/-- In a source of less than 4 GiB no line and no byte of a line is too large a number. -/
theorem toNat_ofOffset (hsize : source.utf8ByteSize < UInt32.size) (h : offset ≤ source.utf8ByteSize) :
    (ofOffset source.toList offset).line.toNat = (lineAndByte 0 0 source.toList offset).1 ∧
      (ofOffset source.toList offset).character.toNat =
        (lineAndByte 0 0 source.toList offset).2 := by
  obtain ⟨hline, hstart⟩ := lineAndByte_spec 0 0 source.toList offset
  have hlines := Text.newlinesBefore_le offset (Text.utf8 source.toList)
  rw [ite_self, Nat.add_zero] at hstart
  constructor
  · refine UInt32.toNat_ofNat_of_lt' ?_
    omega
  · refine UInt32.toNat_ofNat_of_lt' ?_
    omega

theorem exact_ofOffset (hsize : source.utf8ByteSize < UInt32.size) (h : offset ≤ source.utf8ByteSize) :
    (ofOffset source.toList offset).Exact source offset := by
  obtain ⟨hline, hcharacter⟩ := toNat_ofOffset hsize h
  obtain ⟨hlines, hstart⟩ := lineAndByte_spec 0 0 source.toList offset
  rw [ite_self, Nat.add_zero] at hstart
  rw [Nat.zero_add] at hlines
  refine ⟨hline.trans hlines, ?_⟩
  rw [hline, hcharacter, hlines, hstart]

/-- The offset can be told from its position. -/
theorem Exact.offset_eq (hp : p.Exact source offset) (hq : p.Exact source later) : offset = later :=
  hp.start_add.symm.trans hq.start_add

theorem Exact.key_lt (hp : p.Exact source offset) (hq : q.Exact source later) (h : offset < later) :
    p.key < q.key := by
  have hlines : p.line.toNat ≤ q.line.toNat := by
    rw [hp.line_eq, hq.line_eq]
    exact Text.newlinesBefore_mono (Nat.le_of_lt h) _
  rw [key, key, Prod.Lex.toLex_lt_toLex]
  rcases Nat.lt_or_eq_of_le hlines with hlt | heq
  · exact .inl hlt
  · right
    have hstart := hp.start_add
    have hlater := hq.start_add
    rw [← heq] at hlater
    exact ⟨heq, by omega⟩

theorem Exact.key_le (hp : p.Exact source offset) (hq : q.Exact source later) (h : offset ≤ later) :
    p.key ≤ q.key := by
  rcases Nat.lt_or_eq_of_le h with hlt | rfl
  · exact (hp.key_lt hq hlt).le
  · have hline : p.line.toNat = q.line.toNat := hp.line_eq.trans hq.line_eq.symm
    have hstart := hp.start_add
    have hlater := hq.start_add
    rw [← hline] at hlater
    have hcharacter : p.character.toNat = q.character.toNat := by omega
    rw [key, key, hline, hcharacter]

end Position

namespace Diagnosis

variable {source : String}

/-- A diagnosis says what an error is and where it starts and stops, as far as that is in the
    source. -/
structure Locates (source : String) (e : Spanned TemplateError) (d : Diagnosis) : Prop where
  message_eq : d.message = e.value.message
  severity_eq : d.severity = some error
  start : d.range.start.Exact source (min e.span.start source.utf8ByteSize)
  stop : d.range.stop.Exact source (min e.span.stop source.utf8ByteSize)
  ordered : e.span.start ≤ e.span.stop → d.range.start.key ≤ d.range.stop.key

theorem locates_ofError (hsize : source.utf8ByteSize < UInt32.size) (e : Spanned TemplateError) :
    Locates source e (ofError source.toList e) := by
  have hstart := Position.exact_ofOffset hsize (Nat.min_le_right e.span.start source.utf8ByteSize)
  have hstop := Position.exact_ofOffset hsize (Nat.min_le_right e.span.stop source.utf8ByteSize)
  have hrange : (ofError source.toList e).range =
      ⟨Position.ofOffset source.toList (min e.span.start source.utf8ByteSize),
        Position.ofOffset source.toList (min e.span.stop source.utf8ByteSize)⟩ := by
    rw [← Text.bytes_toList]
    rfl
  refine ⟨rfl, rfl, ?_, ?_, ?_⟩
  · rw [hrange]
    exact hstart
  · rw [hrange]
    exact hstop
  · intro h
    rw [hrange]
    exact hstart.key_le hstop (by omega)

/-- Each error has its diagnosis, in order; positions are exact, grow with the offset and can be
    inverted. -/
theorem ofErrors_exact (source : String) (hsize : source.utf8ByteSize < UInt32.size) :
    (∀ es, List.Forall₂ (Locates source) es (ofErrors source es)) ∧
      StrictMonoOn (fun offset => (Position.ofOffset source.toList offset).key)
        (Set.Iic source.utf8ByteSize) ∧
      Set.InjOn (Position.ofOffset source.toList) (Set.Iic source.utf8ByteSize) := by
  refine ⟨?_, ?_, ?_⟩
  · intro es
    rw [ofErrors, List.forall₂_map_right_iff]
    exact List.forall₂_same.2 fun e _ => locates_ofError hsize e
  · intro offset hoffset later hlater hlt
    exact (Position.exact_ofOffset hsize hoffset).key_lt (Position.exact_ofOffset hsize hlater) hlt
  · intro offset hoffset later hlater heq
    have hexact := Position.exact_ofOffset hsize hoffset
    rw [heq] at hexact
    exact hexact.offset_eq (Position.exact_ofOffset hsize hlater)

/-- A span from inside a character to beyond the end: it stops on the empty last line. -/
theorem ofErrors_exact_insideCharacter :
    let source := "a\né\n"
    let e : Spanned TemplateError := ⟨.lexical (.unterminatedDirective '$'), ⟨3, 99⟩⟩
    source.utf8ByteSize < UInt32.size ∧ List.Forall₂ (Locates source) [e] (ofErrors source [e]) ∧
      (ofErrors source [e]).map range = [⟨⟨1, 1⟩, ⟨2, 0⟩⟩] ∧
      (Position.ofOffset source.toList 1).key < (Position.ofOffset source.toList 2).key := by
  intro source e
  have hsize : source.utf8ByteSize < UInt32.size := by decide
  obtain ⟨hall, hmono, -⟩ := ofErrors_exact source hsize
  refine ⟨hsize, hall [e], by decide, ?_⟩
  exact hmono (by decide : 1 ≤ source.utf8ByteSize) (by decide : 2 ≤ source.utf8ByteSize) (by decide)

end Diagnosis
end Stencil
