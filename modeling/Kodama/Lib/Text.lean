import Mathlib.Data.List.Basic

/-!
# Lines and words

A text is a list of characters. `lines` and `splitWhitespace` are those of Rust's `str`; a text
that is made of lines, or of words with white space around them, is taken apart into these
(`lines_flatMap`, `words_iff`).
-/

namespace Lib

abbrev Text := List Char

namespace Text

/-- `char::is_whitespace`: the property White_Space. -/
def isWhitespace (c : Char) : Bool :=
  let n := c.toNat
  (9 ≤ n && n ≤ 13) || n == 0x20 || n == 0x85 || n == 0xA0 || n == 0x1680 ||
    (0x2000 ≤ n && n ≤ 0x200A) || n == 0x2028 || n == 0x2029 || n == 0x202F || n == 0x205F ||
    n == 0x3000

/-- `split_whitespace` -/
def splitWhitespace (text : Text) : List Text :=
  (text.splitOnP isWhitespace).filter (!·.isEmpty)

/-- `lines`: a line ends with a line feed, perhaps after a carriage return; the last one need not
end. -/
def lines : Text → List Text
  | [] => []
  | '\n' :: text => [] :: lines text
  | '\r' :: '\n' :: text => [] :: lines text
  | c :: text =>
    match lines text with
    | [] => [[c]]
    | line :: rest => (c :: line) :: rest

/-- `trim` -/
def trim (text : Text) : Text :=
  ((text.dropWhile isWhitespace).reverse.dropWhile isWhitespace).reverse

/-- `strip_prefix` -/
def stripPrefix (text start : Text) : Option Text :=
  if start <+: text then some (text.drop start.length) else none

/-! ## Words -/

def Blank (text : Text) : Prop := ∀ c ∈ text, isWhitespace c = true

/-- Something without white space. -/
structure Word (text : Text) : Prop where
  ne_nil : text ≠ []
  solid : ∀ c ∈ text, isWhitespace c = false

/-- A text with these words, and white space around them. -/
inductive Words : List Text → Text → Prop where
  | nil {blank : Text} (hblank : Blank blank) : Words [] blank
  | last {blank word : Text} (hblank : Blank blank) (hword : Word word) :
    Words [word] (blank ++ word)
  | cons {blank word rest : Text} {c : Char} {words : List Text} (hblank : Blank blank)
    (hword : Word word) (hc : isWhitespace c = true) (hrest : Words words rest) :
    Words (word :: words) (blank ++ word ++ c :: rest)

theorem splitWhitespace_append_cons (text rest : Text) {c : Char} (hc : isWhitespace c = true) :
    splitWhitespace (text ++ c :: rest) = splitWhitespace text ++ splitWhitespace rest := by
  rw [splitWhitespace, List.splitOnP_append_cons text rest hc, List.filter_append]
  rfl

theorem splitWhitespace_word {word : Text} (h : Word word) : splitWhitespace word = [word] := by
  rw [splitWhitespace, List.splitOnP_eq_singleton h.solid]
  refine List.filter_eq_self.mpr fun text htext => ?_
  rw [List.mem_singleton.mp htext, Bool.not_eq_true', List.isEmpty_eq_false_iff]
  exact h.ne_nil

theorem splitWhitespace_blank {blank : Text} (h : Blank blank) (text : Text) :
    splitWhitespace (blank ++ text) = splitWhitespace text := by
  induction blank with
  | nil => rfl
  | cons c blank ih =>
    obtain ⟨hc, hblank⟩ := List.forall_mem_cons.mp h
    rw [List.cons_append]
    exact (splitWhitespace_append_cons [] _ hc).trans (ih hblank)

/-- The words are what the text is split into. -/
theorem Words.split {words : List Text} {text : Text} (h : Words words text) :
    splitWhitespace text = words := by
  induction h with
  | @nil blank hblank =>
    rw [← List.append_nil blank]
    exact splitWhitespace_blank hblank []
  | last hblank hword => rw [splitWhitespace_blank hblank, splitWhitespace_word hword]
  | cons hblank hword hc _ ih =>
    rw [splitWhitespace_append_cons _ _ hc, splitWhitespace_blank hblank,
      splitWhitespace_word hword, ih, List.singleton_append]

theorem Word.singleton {c : Char} (hc : isWhitespace c = false) : Word [c] where
  ne_nil := List.cons_ne_nil _ _
  solid := List.forall_mem_singleton.mpr hc

theorem Word.cons {c : Char} {word : Text} (hc : isWhitespace c = false) (h : Word word) :
    Word (c :: word) where
  ne_nil := List.cons_ne_nil _ _
  solid := List.forall_mem_cons.mpr ⟨hc, h.solid⟩

/-- One more character of white space. -/
theorem Words.blank_cons {words : List Text} {text : Text} {c : Char} (h : Words words text)
    (hc : isWhitespace c = true) : Words words (c :: text) := by
  have hcons : ∀ {blank}, Blank blank → Blank (c :: blank) := fun hblank =>
    List.forall_mem_cons.mpr ⟨hc, hblank⟩
  cases h with
  | nil hblank => exact .nil (hcons hblank)
  | last hblank hword => exact .last (hcons hblank) hword
  | cons hblank hword hc' hrest => exact .cons (hcons hblank) hword hc' hrest

/-- One more character that is not: of the first word, if there is no white space before it, or a
word of its own. -/
theorem Words.word_cons {words : List Text} {text : Text} {c : Char} (h : Words words text)
    (hc : isWhitespace c = false) : ∃ words', Words words' (c :: text) := by
  have hnil : Blank [] := nofun
  have hword : Word [c] := .singleton hc
  cases h with
  | nil hblank =>
    cases text with
    | nil => exact ⟨_, .last hnil hword⟩
    | cons d blank =>
      obtain ⟨hd, hblank⟩ := List.forall_mem_cons.mp hblank
      exact ⟨_, .cons hnil hword hd (.nil hblank)⟩
  | @last blank word hblank hlast =>
    cases blank with
    | nil => exact ⟨_, .last hnil (hlast.cons hc)⟩
    | cons d blank =>
      obtain ⟨hd, hblank⟩ := List.forall_mem_cons.mp hblank
      exact ⟨_, .cons hnil hword hd (.last hblank hlast)⟩
  | @cons blank word rest c' words hblank hfirst hc' hrest =>
    cases blank with
    | nil => exact ⟨_, .cons hnil (hfirst.cons hc) hc' hrest⟩
    | cons d blank =>
      obtain ⟨hd, hblank⟩ := List.forall_mem_cons.mp hblank
      exact ⟨_, .cons hnil hword hd (.cons hblank hfirst hc' hrest)⟩

theorem exists_words (text : Text) : ∃ words, Words words text := by
  induction text with
  | nil => exact ⟨[], .nil nofun⟩
  | cons c text ih =>
    obtain ⟨words, h⟩ := ih
    cases hc : isWhitespace c with
    | true => exact ⟨words, h.blank_cons hc⟩
    | false => exact h.word_cons hc

/-- Every text is made of the words it is split into. -/
theorem words_iff {words : List Text} {text : Text} :
    Words words text ↔ splitWhitespace text = words := by
  refine ⟨Words.split, fun h => ?_⟩
  obtain ⟨words', h'⟩ := exists_words text
  exact h ▸ h'.split.symm ▸ h'

instance (words : List Text) (text : Text) : Decidable (Words words text) :=
  decidable_of_iff _ words_iff.symm

/-! ## Lines -/

theorem lines_append_newline {line : Text} (h : ∀ c ∈ line, c ≠ '\n' ∧ c ≠ '\r') (rest : Text) :
    lines (line ++ '\n' :: rest) = line :: lines rest := by
  induction line with
  | nil => rw [List.nil_append, lines]
  | cons c line ih =>
    obtain ⟨⟨hn, hr⟩, hline⟩ := List.forall_mem_cons.mp h
    rw [List.cons_append, lines, ih hline]
    · exact hn
    · exact fun _ hc => absurd hc hr

/-- A text that is made of lines has these lines. -/
theorem lines_flatMap {ls : List Text} (h : ∀ line ∈ ls, ∀ c ∈ line, c ≠ '\n' ∧ c ≠ '\r') :
    lines (ls.flatMap fun line => line ++ ['\n']) = ls := by
  induction ls with
  | nil => rfl
  | cons line ls ih =>
    obtain ⟨hline, hls⟩ := List.forall_mem_cons.mp h
    rw [List.flatMap_cons, List.append_assoc, List.singleton_append, lines_append_newline hline,
      ih hls]

end Text

end Lib
