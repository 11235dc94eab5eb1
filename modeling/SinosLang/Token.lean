import SinosLang.Diagnostic

/-!
# Tokens

The kinds of tokens, the spellings that stand for a kind of their own, and the listing of a sequence
of tokens, one line each.
-/

set_option autoImplicit false

namespace SinosLang

/-- The kinds of tokens. -/
inductive TokenKind where
  | letKeyword
  | bool
  | lparen
  | rparen
  | lbrace
  | rbrace
  | comma
  | colon
  | semi
  | assign
  | eq
  | ne
  | lt
  | le
  | gt
  | ge
  | not
  | plus
  | sub
  | mult
  | div
  | mod
  | cat
  | ident
  | int
  | float
  | string
  | eof
deriving DecidableEq, Repr

namespace TokenKind

/-- All kinds of tokens. -/
def all : List TokenKind :=
  [letKeyword, bool, lparen, rparen, lbrace, rbrace, comma, colon, semi, assign, eq, ne, lt, le, gt,
    ge, not, plus, sub, mult, div, mod, cat, ident, int, float, string, eof]

/-- The name that a kind goes by in listings. -/
def label : TokenKind → Text
  | letKeyword => "LET".toList
  | bool => "BOOL".toList
  | lparen => "LPAREN".toList
  | rparen => "RPAREN".toList
  | lbrace => "LBRACE".toList
  | rbrace => "RBRACE".toList
  | comma => "COMMA".toList
  | colon => "COLON".toList
  | semi => "SEMI".toList
  | assign => "ASSIGN".toList
  | eq => "EQ".toList
  | ne => "NE".toList
  | lt => "LT".toList
  | le => "LE".toList
  | gt => "GT".toList
  | ge => "GE".toList
  | not => "NOT".toList
  | plus => "PLUS".toList
  | sub => "SUB".toList
  | mult => "MULT".toList
  | div => "DIV".toList
  | mod => "MOD".toList
  | cat => "CAT".toList
  | ident => "IDENT".toList
  | int => "INT".toList
  | float => "FLOAT".toList
  | string => "STRING".toList
  | eof => "EOF".toList

/-- The kind with a label. -/
def ofLabel? (text : Text) : Option TokenKind :=
  all.find? fun kind => kind.label == text

/-- The words that are no identifiers. -/
def keywords : List (Text × TokenKind) :=
  [("let".toList, letKeyword), ("true".toList, bool), ("false".toList, bool)]

/-- The symbols: punctuation and operators. -/
def symbols : List (Text × TokenKind) :=
  [(['('], lparen), ([')'], rparen), (['\x7b'], lbrace), (['\x7d'], rbrace), ([','], comma),
    ([':'], colon), ([';'], semi), (['='], assign), (['=', '='], eq), (['!', '='], ne), (['<'], lt),
    (['<', '='], le), (['>'], gt), (['>', '='], ge), (['!'], not), (['+'], plus), (['-'], sub),
    (['*'], mult), (['/'], div), (['%'], mod), (['~'], cat)]

/-- Every spelling that stands for a kind of its own. -/
def spellings : List (Text × TokenKind) :=
  keywords ++ symbols

/-- The operators, from the loosest to the tightest. -/
def operators : List TokenKind :=
  [eq, ne, lt, le, gt, ge, cat, plus, sub, mult, div, mod, not]

/-- The length of the longest symbol. -/
def longestSymbol : Nat :=
  (symbols.map fun entry => entry.1.length).foldl max 0

/-- The kind of a word: that of a keyword, or an identifier. -/
def ofWord (word : Text) : TokenKind :=
  (keywords.lookup word).getD ident

/-- The kind of a symbol. -/
def ofSymbol? (symbol : Text) : Option TokenKind :=
  symbols.lookup symbol

end TokenKind

/-- A token: its kind, its value and its place. The value is the text of the token, except that a
string carries its decoded content and the end of the text carries nothing. -/
structure Token where
  kind : TokenKind
  value : Text
  span : Span
deriving DecidableEq, Repr

namespace Token

/-- A token as a listing of its own shows it. -/
def listed (token : Token) : Text :=
  "Token(".toList ++ token.kind.label ++ ", ".toList ++ token.value ++ [')']

/-- The line of a token in a listing: its kind, its span and its value. -/
def line (token : Token) : Text :=
  Text.padRight 8 token.kind.label ++ ' ' :: token.span.brackets ++ ' ' :: Text.listed token.value

/-- The listing of a sequence of tokens, one line each. -/
def listing (tokens : List Token) : Text :=
  Text.joinLines (tokens.map line)

end Token

end SinosLang
