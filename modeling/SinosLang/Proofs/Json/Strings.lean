import SinosLang.Json
import SinosLang.Proofs.Text.Delimiters
import SinosLang.Proofs.Text.Hexadecimal
import Mathlib.Tactic.SplitIfs

/-!
# Strings of a JSON document

A string stands between quotes. A character of it is written as itself, as a letter behind a
backslash, or by its code point, which takes two escapes beyond the basic plane. Control characters,
the quote and the backslash are never written as themselves. The reader takes the characters off the
front one by one, in whichever way they are written; documents write each of them in one way.

Main statements: `string?_of_body`, `stringBody_json` and `json_injective`.
-/

set_option autoImplicit false

namespace SinosLang.Json

open Text (ofHex? hex)

/-- The letters behind a backslash and the characters that they stand for. -/
def escapes : List (Char × Char) :=
  [('"', '"'), ('\\', '\\'), ('/', '/'), ('b', '\x08'), ('f', '\x0c'), ('n', '\n'), ('r', '\r'),
    ('t', '\t')]

/-- The code point beyond the basic plane that two escapes stand for together. -/
def pairCode (high low : Nat) : Nat :=
  0x10000 + (high - 0xd800) * 0x400 + (low - 0xdc00)

/-- The ways in which a character of a string may be written. -/
inductive StringChar : Text → Char → Prop
  | plain {c : Char} : 0x20 ≤ c.toNat → c ≠ '"' → c ≠ '\\' → StringChar [c] c
  | letter {letter c : Char} : (letter, c) ∈ escapes → StringChar ['\\', letter] c
  | code {digits : Text} {c : Char} : digits.length = 4 → ofHex? digits = some c.toNat →
    StringChar ('\\' :: 'u' :: digits) c
  | pair {digits digits' : Text} {high low : Nat} {c : Char} :
    digits.length = 4 → digits'.length = 4 → ofHex? digits = some high → ofHex? digits' = some low →
    0xd800 ≤ high → high < 0xdc00 → 0xdc00 ≤ low → low < 0xe000 → c.toNat = pairCode high low →
    StringChar ('\\' :: 'u' :: (digits ++ '\\' :: 'u' :: digits')) c

/-- What stands between the quotes of a string, and its content. -/
inductive StringBody : Text → Text → Prop
  | nil : StringBody [] []
  | cons {code body content : Text} {c : Char} : StringChar code c → StringBody body content →
    StringBody (code ++ body) (c :: content)

/-! ## Reading -/

/-- Takes the character of a code point, from behind the `u`, off the front of a string. -/
def codeEscape? (text : Text) : Option (Char × Text) :=
  (ofHex? (text.take 4)).bind fun code =>
    if 0xd800 ≤ code ∧ code < 0xdc00 then
      match text.drop 4 with
      | '\\' :: 'u' :: rest =>
        (ofHex? (rest.take 4)).map fun low => (Char.ofNat (pairCode code low), rest.drop 4)
      | _ => none
    else
      some (Char.ofNat code, text.drop 4)

/-- Takes an escape, from behind its backslash, off the front of a string. -/
def escape? : Text → Option (Char × Text)
  | [] => none
  | letter :: rest =>
    if letter = 'u' then codeEscape? rest else (escapes.lookup letter).map fun c => (c, rest)

/-- Takes a character off the front of a string. -/
def stringChar? : Text → Option (Char × Text)
  | [] => none
  | c :: rest =>
    if c = '\\' then escape? rest
    else if c.toNat < 0x20 then none
    else some (c, rest)

/-- The content of a string up to its closing quote, and what stands behind that; there are fewer
characters than rounds. -/
def string? : Nat → Text → Option (Text × Text)
  | 0, _ => none
  | rounds + 1, text =>
    if text.head? = some '"' then
      some ([], text.tail)
    else
      (stringChar? text).bind fun (c, rest) =>
        (string? rounds rest).map fun (content, behind) => (c :: content, behind)

variable {code body content text other : Text} {c : Char}

/-- The code of a character is not empty, and does not begin with a quote. -/
theorem StringChar.exists_head (written : StringChar code c) :
    ∃ first rest, code = first :: rest ∧ first ≠ '"' := by
  cases written with
  | plain _ notQuote _ => exact ⟨c, [], rfl, notQuote⟩
  | letter _ => exact ⟨'\\', _, rfl, by decide⟩
  | code _ _ => exact ⟨'\\', _, rfl, by decide⟩
  | pair _ _ _ _ _ _ _ _ _ => exact ⟨'\\', _, rfl, by decide⟩

/-- However a character is written, it is read, whatever follows. -/
theorem stringChar?_of_written (written : StringChar code c) (rest : Text) :
    stringChar? (code ++ rest) = some (c, rest) := by
  cases written with
  | plain notControl _ notBackslash =>
    have notLess : ¬ c.toNat < 0x20 := by omega
    rw [List.singleton_append, stringChar?, if_neg notBackslash, if_neg notLess]
  | letter known =>
    simp only [escapes, List.mem_cons, Prod.mk.injEq, List.not_mem_nil, or_false] at known
    rcases known with ⟨rfl, rfl⟩ | ⟨rfl, rfl⟩ | ⟨rfl, rfl⟩ | ⟨rfl, rfl⟩ | ⟨rfl, rfl⟩ | ⟨rfl, rfl⟩ |
      ⟨rfl, rfl⟩ | ⟨rfl, rfl⟩ <;> rfl
  | @code digits _ size read =>
    have noPair : ¬ (0xd800 ≤ c.toNat ∧ c.toNat < 0xdc00) := by
      have valid : c.toNat < 0xd800 ∨ 0xdfff < c.toNat ∧ c.toNat < 0x110000 := c.valid
      omega
    show codeEscape? (digits ++ rest) = _
    rw [codeEscape?, List.take_left' size, List.drop_left' size, read, Option.bind_some,
      if_neg noPair, Char.ofNat_toNat]
  | @pair digits digits' high low _ size size' read read' ge lt _ _ isCode =>
    have shape : digits ++ '\\' :: 'u' :: digits' ++ rest =
        digits ++ '\\' :: 'u' :: (digits' ++ rest) := by simp
    show codeEscape? (digits ++ '\\' :: 'u' :: digits' ++ rest) = _
    rw [shape, codeEscape?, List.take_left' size, List.drop_left' size, read, Option.bind_some,
      if_pos ⟨ge, lt⟩]
    show (ofHex? ((digits' ++ rest).take 4)).map (fun value =>
      (Char.ofNat (pairCode high value), (digits' ++ rest).drop 4)) = _
    rw [List.take_left' size', List.drop_left' size', read', Option.map_some, ← isCode,
      Char.ofNat_toNat]

/-- However its characters are written, a string is read up to its closing quote. -/
theorem string?_of_body (written : StringBody body content) {rounds : Nat}
    (enough : body.length < rounds) (rest : Text) :
    string? rounds (body ++ '"' :: rest) = some (content, rest) := by
  induction written generalizing rounds with
  | nil =>
    obtain ⟨rounds, rfl⟩ := Nat.exists_eq_add_one_of_ne_zero (Nat.ne_zero_of_lt enough)
    rfl
  | @cons code body content c char _ ih =>
    obtain ⟨rounds, rfl⟩ := Nat.exists_eq_add_one_of_ne_zero (Nat.ne_zero_of_lt enough)
    obtain ⟨first, others, rfl, notQuote⟩ := char.exists_head
    have noQuote : ¬ (first :: others ++ body ++ '"' :: rest).head? = some '"' := by
      simpa using notQuote
    simp only [List.length_append, List.length_cons] at enough
    rw [string?, if_neg noQuote, List.append_assoc, stringChar?_of_written char, Option.bind_some]
    dsimp only
    rw [ih (by omega)]
    rfl

/-! ## Writing -/

/-- A character as it is written in a string denotes that character. -/
theorem stringChar_jsonChar (c : Char) : StringChar (Text.jsonChar c) c := by
  unfold Text.jsonChar
  split_ifs with quote backslash newline carriage tab backspace feed control
  · exact .letter (by simp [escapes, eq_of_beq quote])
  · exact .letter (by simp [escapes, eq_of_beq backslash])
  · exact .letter (by simp [escapes, eq_of_beq newline])
  · exact .letter (by simp [escapes, eq_of_beq carriage])
  · exact .letter (by simp [escapes, eq_of_beq tab])
  · exact .letter (by simp [escapes, eq_of_beq backspace])
  · exact .letter (by simp [escapes, eq_of_beq feed])
  · exact .code (Text.length_hex (by decide) (by omega)) (Text.ofHex?_hex 4 c.toNat)
  · exact .plain (by omega) (mt beq_iff_eq.mpr quote) (mt beq_iff_eq.mpr backslash)

/-- A text is written as a string that has it as its content. -/
theorem stringBody_json (text : Text) : StringBody (text.flatMap Text.jsonChar) text := by
  induction text with
  | nil => exact .nil
  | cons c text ih => exact .cons (stringChar_jsonChar c) ih

/-- Texts that are written as one string are the same. -/
theorem json_injective (same : Text.json text = Text.json other) : text = other :=
  Text.flatMap_inj (fun c => stringChar?_of_written (stringChar_jsonChar c)) rfl
    (List.append_cancel_right (List.cons.inj same).2)

/-- No character is written with a newline. -/
theorem StringChar.newline_not_mem (written : StringChar code c) : '\n' ∉ code := by
  have digits_free {digits : Text} {value : Nat} (read : ofHex? digits = some value) :
      '\n' ∉ digits := by
    intro isIn
    cases Text.isSome_of_mem_ofHexBehind? read '\n' isIn
  cases written with
  | plain notControl _ _ =>
    intro isIn
    rw [← List.mem_singleton.mp isIn] at notControl
    exact absurd notControl (by decide)
  | @letter letter _ known =>
    have letters : ∀ entry ∈ escapes, entry.1 ≠ '\n' := by decide
    simp [Ne.symm (letters _ known)]
  | code _ read => simp [digits_free read]
  | pair _ _ read read' => simp [digits_free read, digits_free read']

/-- A text as it is written in a document has no line break. -/
theorem newline_not_mem_json (text : Text) : '\n' ∉ Text.json text := by
  simp [Text.json, (stringChar_jsonChar _).newline_not_mem]

end SinosLang.Json
