import SinosLang.Proofs.Json.Grammar

/-!
# Reading JSON

A reader takes the value at the front of a text and gives back the rest. It goes down by one bracket
at a time, and inside brackets from comma to comma. Whatever the grammar derives is read as what it
denotes, so a text denotes at most one document.

Main statements: `decode?_of_denotes` and `Denotes.unique`.
-/

set_option autoImplicit false

namespace SinosLang.Json

/-- A text without the white space in front. -/
def skip (text : Text) : Text :=
  text.dropWhile isSpace

section Lists

variable {α : Type} (element? : Text → Option (α × Text)) (closing : Char)

/-- Takes elements with commas between them, up to the closing bracket; there are fewer elements than
rounds. -/
def separated? : Nat → Text → Option (List α × Text)
  | 0, _ => none
  | rounds + 1, text =>
    (element? text).bind fun (value, behind) =>
      match skip behind with
      | [] => none
      | c :: rest =>
        if c = closing then some ([value], rest)
        else if c = ',' then
          (separated? rounds (skip rest)).map fun (values, rest) => (value :: values, rest)
        else none

/-- Takes what stands behind an opening bracket, up to the closing one. -/
def enclosed? (text : Text) : Option (List α × Text) :=
  let inside := skip text
  if inside.head? = some closing then some ([], inside.tail)
  else separated? element? closing inside.length inside

end Lists

/-- Takes a name and its value. -/
def member? (value? : Text → Option (Json × Text)) (text : Text) :
    Option ((Text × Json) × Text) :=
  if text.head? = some '"' then
    (string? text.length text.tail).bind fun (key, behind) =>
      match skip behind with
      | [] => none
      | c :: rest =>
        if c = ':' then
          (value? (skip rest)).map fun (document, rest) => ((key, document), rest)
        else none
  else
    none

/-- Takes a value without parts. -/
def scalar? : Text → Option (Json × Text)
  | 'n' :: 'u' :: 'l' :: 'l' :: rest => some (null, rest)
  | 't' :: 'r' :: 'u' :: 'e' :: rest => some (boolean true, rest)
  | 'f' :: 'a' :: 'l' :: 's' :: 'e' :: rest => some (boolean false, rest)
  | text => number? text

/-- Takes a value with brackets nested less than so deep. -/
def value? : Nat → Text → Option (Json × Text)
  | 0, _ => none
  | _ + 1, [] => none
  | depth + 1, c :: rest =>
    if c = '"' then
      (string? (rest.length + 1) rest).map fun (content, rest) => (string content, rest)
    else if c = '[' then
      (enclosed? (value? depth) ']' rest).map fun (items, rest) => (array items, rest)
    else if c = '\x7b' then
      (enclosed? (member? (value? depth)) '\x7d' rest).map fun (members, rest) =>
        (object members, rest)
    else
      scalar? (c :: rest)

/-- The document that a text denotes. -/
def decode? (text : Text) : Option Json :=
  (value? text.length (skip text)).bind fun (document, rest) =>
    if (skip rest).isEmpty then some document else none

/-! ## What is in front and what is behind -/

/-- A text that does not go on with a number. -/
def Ends (rest : Text) : Prop :=
  ∀ c, rest.head? = some c → isNumberPart c = false

/-- White space and the closing brackets; nothing that is an element begins with one of them. -/
def stops : List Char :=
  [' ', '\t', '\n', '\r', ']', '\x7d']

/-- A text that begins as an element may. -/
def Begins (text : Text) : Prop :=
  ∃ c rest, text = c :: rest ∧ c ∉ stops

variable {α : Type} {text front before after rest : Text} {c : Char} {document : Json} {bound : Nat}

/-- No element begins with white space. -/
theorem mem_stops (space : isSpace c = true) : c ∈ stops := by
  have among : ∀ c ∈ [' ', '\t', '\n', '\r'], c ∈ stops :=
    List.forall_iff_forall_mem.mp (by decide)
  exact among c (List.contains_iff_mem.mp space)

/-- A character that an element may begin with is no white space. -/
theorem isSpace_of_not_stop (notStop : c ∉ stops) : isSpace c = false :=
  Bool.eq_false_iff.mpr (mt mem_stops notStop)

/-- White space and closing brackets are no parts of a number. -/
theorem isNumberPart_of_stop (isStop : c ∈ stops) : isNumberPart c = false := by
  have none : ∀ c ∈ stops, isNumberPart c = false := List.forall_iff_forall_mem.mp (by decide)
  exact none c isStop

/-- A closing bracket is no white space and no comma. -/
theorem closing_apart (isClosing : c ∈ [']', '\x7d']) :
    isSpace c = false ∧ c ∈ stops ∧ ',' ≠ c := by
  have closings : ∀ c ∈ [']', '\x7d'], isSpace c = false ∧ c ∈ stops ∧ ',' ≠ c :=
    List.forall_iff_forall_mem.mp (by decide)
  exact closings c isClosing

/-- White space is skipped up to the first other character. -/
theorem skip_append (space : IsSpace front)
    (boundary : ∀ c, rest.head? = some c → isSpace c = false) : skip (front ++ rest) = rest :=
  (Text.takeWhile_append space boundary).2

/-- White space is skipped up to a character that is none. -/
theorem skip_cons (space : IsSpace front) (notSpace : isSpace c = false) :
    skip (front ++ c :: rest) = c :: rest := by
  refine skip_append space ?_
  rintro _ ⟨⟩
  exact notSpace

/-- White space is skipped up to an element. -/
theorem skip_begins (space : IsSpace front) (begins : Begins text) :
    skip (front ++ (text ++ rest)) = text ++ rest := by
  obtain ⟨c, others, rfl, notStop⟩ := begins
  exact skip_cons space (isSpace_of_not_stop notStop)

/-- A number ends in front of a character that is no part of it. -/
theorem ends_cons (notPart : isNumberPart c = false) : Ends (c :: rest) := by
  rintro _ ⟨⟩
  exact notPart

/-- A number ends before white space, and before what ends it behind no white space. -/
theorem IsSpace.ends (space : IsSpace front) (ends : Ends rest) : Ends (front ++ rest) := by
  cases front with
  | nil => exact ends
  | cons c front => exact ends_cons (isNumberPart_of_stop (mem_stops (space c List.mem_cons_self)))

/-- Separated elements begin as the first of them does. -/
theorem Separated.begins {element : Text → α → Prop} {values : List α}
    (begins : ∀ part value, element part value → Begins part)
    (separated : Separated element text values) : Begins text := by
  cases separated with
  | single isElement => exact begins _ _ isElement
  | cons isElement _ _ _ =>
    obtain ⟨c, others, rfl, notStop⟩ := begins _ _ isElement
    exact ⟨c, _, rfl, notStop⟩

/-- A value begins with a quote, a bracket, a letter, a digit or a sign. -/
theorem IsValue.begins (isValue : IsValue text document) : Begins text := by
  cases isValue_iff.mp isValue with
  | null | true | false => exact ⟨_, _, rfl, by decide⟩
  | number isNumber =>
    obtain ⟨c, others, rfl⟩ := List.exists_cons_of_ne_nil isNumber.ne_nil
    exact ⟨c, others, rfl, fun isStop => isNumber.head_ne (isNumberPart_of_stop isStop) rfl⟩
  | string _ => exact ⟨_, _, rfl, by decide⟩
  | array enclosed | object enclosed => cases enclosed <;> exact ⟨_, _, rfl, by decide⟩

/-! ## Whatever is derived is read -/

/-- A reader that takes the elements within a length off the front of any text that does not go on with
a number. -/
def Takes (element? : Text → Option (α × Text)) (element : Text → α → Prop) (bound : Nat) : Prop :=
  ∀ part value, part.length ≤ bound → element part value → ∀ rest, Ends rest →
    element? (part ++ rest) = some (value, rest)

section Lists

variable {element? : Text → Option (α × Text)} {element : Text → α → Prop} {values : List α}
  {opening closing : Char}

/-- Separated elements are read off the front of a text, up to the closing bracket. -/
theorem separated?_of_separated (takes : Takes element? element bound)
    (begins : ∀ part value, element part value → Begins part)
    (isClosing : closing ∈ [']', '\x7d']) (space : IsSpace after)
    (separated : Separated element text values) (short : text.length ≤ bound) {rounds : Nat}
    (enough : text.length < rounds) :
    separated? element? closing rounds (text ++ (after ++ closing :: rest)) = some (values, rest) := by
  obtain ⟨notSpace, isStop, notComma⟩ := closing_apart isClosing
  induction separated generalizing rounds with
  | @single text value isElement =>
    obtain ⟨rounds, rfl⟩ := Nat.exists_eq_add_one_of_ne_zero (Nat.ne_zero_of_lt enough)
    have ends : Ends (after ++ closing :: rest) :=
      space.ends (ends_cons (isNumberPart_of_stop isStop))
    rw [separated?, takes text value short isElement _ ends, Option.bind_some]
    dsimp only
    rw [skip_cons space notSpace]
    exact if_pos rfl
  | @cons first before' after' later value values isElement space' space'' isLater ih =>
    obtain ⟨rounds, rfl⟩ := Nat.exists_eq_add_one_of_ne_zero (Nat.ne_zero_of_lt enough)
    simp only [List.length_append, List.length_cons] at short enough
    have shape : first ++ before' ++ ',' :: (after' ++ later) ++ (after ++ closing :: rest) =
        first ++ (before' ++ ',' :: (after' ++ (later ++ (after ++ closing :: rest)))) := by
      simp only [List.append_assoc, List.cons_append]
    rw [shape, separated?, takes first value (by omega) isElement _ (space'.ends (ends_cons rfl)),
      Option.bind_some]
    dsimp only
    rw [skip_cons space' rfl]
    dsimp only
    rw [if_neg notComma, if_pos rfl, skip_begins space'' (isLater.begins begins),
      ih (by omega) (by omega)]
    rfl

/-- What stands between brackets is read from behind the opening one. -/
theorem enclosed?_of_enclosed (takes : Takes element? element bound)
    (begins : ∀ part value, element part value → Begins part)
    (isClosing : closing ∈ [']', '\x7d']) (enclosed : Enclosed element opening closing text values)
    (short : text.length ≤ bound + 1) :
    ∃ inside, text = opening :: inside ∧
      ∀ rest, enclosed? element? closing (inside ++ rest) = some (values, rest) := by
  obtain ⟨notSpace, isStop, _⟩ := closing_apart isClosing
  cases enclosed with
  | @empty space isSpace =>
    refine ⟨_, rfl, fun rest => ?_⟩
    rw [List.append_assoc, List.singleton_append, enclosed?, skip_cons isSpace notSpace]
    exact if_pos rfl
  | @filled before inner after values isSpace isSpace' separated =>
    refine ⟨_, rfl, fun rest => ?_⟩
    simp only [List.length_append, List.length_cons] at short
    have shape : before ++ inner ++ after ++ [closing] ++ rest =
        before ++ (inner ++ (after ++ closing :: rest)) := by
      simp only [List.append_assoc, List.singleton_append]
    have notClosed : ¬ (inner ++ (after ++ closing :: rest)).head? = some closing := by
      obtain ⟨c, others, rfl, notStop⟩ := separated.begins begins
      intro same
      exact notStop (Option.some.inj same ▸ isStop)
    have enough : inner.length < (inner ++ (after ++ closing :: rest)).length := by
      simp only [List.length_append, List.length_cons]
      omega
    rw [shape, enclosed?, skip_begins isSpace (separated.begins begins), if_neg notClosed]
    exact separated?_of_separated takes begins isClosing isSpace' separated (by omega) enough

end Lists

/-- A reader of members takes them if the reader of values takes the values. -/
theorem member?_takes {value? : Text → Option (Json × Text)} {value : Text → Json → Prop}
    (takes : Takes value? value bound) (begins : ∀ part document, value part document → Begins part) :
    Takes (member? value?) (Member value) bound := by
  intro text member short isMember rest ends
  cases isMember with
  | @mk body key before after part document isKey space space' isValue =>
    simp only [List.length_append, List.length_cons] at short
    have shape : '"' :: (body ++ '"' :: (before ++ ':' :: (after ++ part))) ++ rest =
        '"' :: (body ++ '"' :: (before ++ ':' :: (after ++ (part ++ rest)))) := by
      simp only [List.append_assoc, List.cons_append]
    have enough : body.length <
        ('"' :: (body ++ '"' :: (before ++ ':' :: (after ++ (part ++ rest))))).length := by
      simp only [List.length_append, List.length_cons]
      omega
    rw [shape, member?, if_pos List.head?_cons, List.tail_cons, string?_of_body isKey enough,
      Option.bind_some]
    dsimp only
    rw [skip_cons space rfl]
    dsimp only
    rw [if_pos rfl, skip_begins space' (begins _ _ isValue),
      takes part document (by omega) isValue rest ends]
    rfl

/-- A number begins no other scalar. -/
theorem scalar?_of_number (isNumber : Number text document) (rest : Text) :
    scalar? (text ++ rest) = number? (text ++ rest) := by
  obtain ⟨c, others, rfl⟩ := List.exists_cons_of_ne_nil isNumber.ne_nil
  rw [List.cons_append]
  unfold scalar?
  split
  next same => exact absurd (List.cons.inj same).1 (isNumber.head_ne rfl)
  next same => exact absurd (List.cons.inj same).1 (isNumber.head_ne rfl)
  next same => exact absurd (List.cons.inj same).1 (isNumber.head_ne rfl)
  next => rfl

/-- Every value is read as what it denotes. -/
theorem value?_takes (depth : Nat) : Takes (value? depth) IsValue depth := by
  induction depth with
  | zero =>
    intro text document short isValue
    obtain ⟨c, others, rfl, _⟩ := isValue.begins
    cases short
  | succ depth ih =>
    intro text document short isValue rest ends
    have begins (part : Text) (document : Json) (isValue : IsValue part document) : Begins part :=
      isValue.begins
    cases isValue_iff.mp isValue with
    | null | true | false => rfl
    | number isNumber =>
      have read := scalar?_of_number isNumber rest
      rw [number?_of_number isNumber ends] at read
      obtain ⟨c, others, rfl⟩ := List.exists_cons_of_ne_nil isNumber.ne_nil
      rw [List.cons_append, value?, if_neg (isNumber.head_ne rfl), if_neg (isNumber.head_ne rfl),
        if_neg (isNumber.head_ne rfl)]
      exact read
    | @string body content written =>
      have shape : '"' :: (body ++ ['"']) ++ rest = '"' :: (body ++ '"' :: rest) := by simp
      have enough : body.length < (body ++ '"' :: rest).length + 1 := by
        rw [List.length_append]
        omega
      rw [shape, value?, if_pos rfl, string?_of_body written enough]
      rfl
    | array enclosed =>
      obtain ⟨inside, rfl, read⟩ := enclosed?_of_enclosed ih begins (by decide) enclosed short
      rw [List.cons_append, value?, if_neg (by decide), if_pos rfl, read]
      rfl
    | object enclosed =>
      have begins' (part : Text) (member : Text × Json) (isMember : Member IsValue part member) :
          Begins part := by
        obtain ⟨_, _, _, _⟩ := isMember
        exact ⟨'"', _, rfl, by decide⟩
      obtain ⟨inside, rfl, read⟩ :=
        enclosed?_of_enclosed (member?_takes ih begins) begins' (by decide) enclosed short
      rw [List.cons_append, value?, if_neg (by decide), if_neg (by decide), if_pos rfl, read]
      rfl

/-- A text is decoded to the document that it denotes. -/
theorem decode?_of_denotes (denotes : Denotes text document) : decode? text = some document := by
  obtain ⟨before, inner, after, rfl, space, space', isValue⟩ := denotes
  have behind : skip after = [] := by
    rw [← List.append_nil after]
    exact skip_append space' nofun
  have short : inner.length ≤ (before ++ inner ++ after).length := by
    simp only [List.length_append]
    omega
  have ends : Ends after := by
    rw [← List.append_nil after]
    exact space'.ends nofun
  rw [decode?, List.append_assoc, skip_begins space isValue.begins, ← List.append_assoc,
    value?_takes _ inner document short isValue after ends, Option.bind_some]
  dsimp only
  rw [behind]
  rfl

/-- A text denotes at most one document. -/
theorem Denotes.unique {document' : Json} (denotes : Denotes text document)
    (denotes' : Denotes text document') : document = document' := by
  have read := decode?_of_denotes denotes
  rw [decode?_of_denotes denotes'] at read
  exact (Option.some.inj read).symm

end SinosLang.Json
