import SinosLang.Text.Basic
import SinosLang.Text.CaseTables

/-!
# Lower case

The lower-case form of a text under the full mapping: single characters by table, the capital I with
a dot as two characters, and a capital sigma by its place in the word.
-/

set_option autoImplicit false

namespace SinosLang.Text

/-- The lower-case form of a single character other than a capital sigma. -/
def lowerChar (c : Char) : Text :=
  if c.toNat < 0x80 then
    [c.toLower]
  else if c == 'İ' then
    ['i', '\u0307']
  else
    match lowerRuns.findSome? (CaseRun.target? · c.toNat) with
    | some code => [Char.ofNat code]
    | none => [c]

/-- Whether the nearest character that a search does not pass over is a cased letter. -/
def meetsCased (text : Text) : Bool :=
  match text.dropWhile (inRanges caseIgnorableRanges) with
  | [] => false
  | c :: _ => inRanges casedRanges c

/-- The lower-case form of what follows `before`, which is given backwards. A capital sigma takes
its final form after a cased letter unless another one follows. -/
def lowerAfter (before : Text) : Text → Text
  | [] => []
  | c :: rest =>
    let form :=
      if c == 'Σ' then
        if meetsCased before && !meetsCased rest then ['ς'] else ['σ']
      else
        lowerChar c
    form ++ lowerAfter (c :: before) rest

/-- The lower-case form of a text. -/
def lower (text : Text) : Text :=
  lowerAfter [] text

end SinosLang.Text
