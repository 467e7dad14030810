import SemanticLayer.Database
import SemanticLayer.Text.Letter
/-!
The tokens of SQL text, and the rules of the three engines by which text falls into tokens.
-/
namespace SemanticLayer.Sql

inductive TextKind where
  | plain
  /-- In double quotes, where these do not quote names. -/
  | doubleQuoted
  | national
  /-- With backslash escapes by a mark in front. -/
  | escaped
  | unicode
  | hex
  | bytes
  | doubleQuotedBytes
  /-- Between dollar signs with a tag, which may be empty. -/
  | dollar (tag : String)
  deriving DecidableEq, Repr

inductive Token where
  /-- A name or keyword; a quoted name has the opening quote. -/
  | word (text : String) (quote : Option Char)
  | number (digits : String) (long : Bool)
  | text (kind : TextKind) (value : String)
  | placeholder (text : String)
  /-- Punctuation or an operator, in its usual spelling. -/
  | sign (text : String)
  | gap
  deriving DecidableEq, Repr, Inhabited

def Token.isWord : Token → Bool
  | .word _ _ => true
  | _ => false

/-- A line and a column, both from 1. -/
structure Place where
  line : Nat
  column : Nat
  deriving DecidableEq, Repr, Inhabited

namespace Place

def start : Place :=
  ⟨1, 1⟩

def next (p : Place) (c : Char) : Place :=
  if c = '\n' then ⟨p.line + 1, 1⟩ else ⟨p.line, p.column + 1⟩

def behind (p : Place) (s : List Char) : Place :=
  s.foldl next p

def words (p : Place) : String :=
  " at Line: " ++ toString p.line ++ ", Column: " ++ toString p.column

end Place

/-- A token and the place where it begins. -/
structure Lexeme where
  token : Token
  place : Place
  deriving DecidableEq, Repr, Inhabited

/-- How an engine's text falls into tokens. -/
structure LexicalRules where
  isNameStart : Char → Bool
  isNamePart : Char → Bool
  /-- The characters that open a quoted name. -/
  nameQuotes : List Char
  backslashEscapes : Bool
  /-- Two hyphens open a comment only with a space behind them. -/
  spacedComments : Bool
  hashComments : Bool
  nestedComments : Bool
  /-- A carriage return ends a comment to the end of the line. -/
  returnEndsComment : Bool
  /-- `B'…'` is a literal. -/
  byteTexts : Bool
  /-- `E'…'` and `U&'…'` are literals. -/
  markedTexts : Bool
  /-- Underscores may stand between the digits of numbers. -/
  groupedDigits : Bool
  /-- Names may begin with digits. -/
  digitNames : Bool
  /-- Operators on geometric types and on JSON with question marks. -/
  geometricOperators : Bool
  /-- The characters that make an operator in front of them another, unknown one. -/
  isOperatorPart : Char → Bool

namespace LexicalRules

def operatorCharacters : List Char :=
  ['+', '-', '*', '/', '<', '>', '=', '~', '!', '@', '#', '%', '^', '&', '|', '\x60', '?']

def isForeign (c : Char) : Bool :=
  0x80 ≤ c.toNat

/-- Names of PostgreSQL begin with a letter, an underscore or a character beyond ASCII. -/
def postgresql : LexicalRules where
  isNameStart c := Text.isAlphabetic c || c == '_' || isForeign c
  isNamePart c := Text.isAlphabetic c || c.isDigit || c == '$' || c == '_' || isForeign c
  nameQuotes := ['"']
  backslashEscapes := false
  spacedComments := false
  hashComments := false
  nestedComments := true
  returnEndsComment := true
  byteTexts := true
  markedTexts := true
  groupedDigits := true
  digitNames := false
  geometricOperators := true
  isOperatorPart := operatorCharacters.contains

/-- Names of SQL Server may begin with a number sign or an at sign. -/
def mssql : LexicalRules where
  isNameStart c := Text.isAlphabetic c || c == '_' || c == '#' || c == '@'
  isNamePart c :=
    Text.isAlphabetic c || c.isDigit || c == '@' || c == '$' || c == '#' || c == '_'
  nameQuotes := ['"', '[']
  backslashEscapes := false
  spacedComments := false
  hashComments := false
  nestedComments := true
  returnEndsComment := false
  byteTexts := false
  markedTexts := false
  groupedDigits := false
  digitNames := false
  geometricOperators := false
  isOperatorPart _ := false

/-- Texts of MySQL stand in quotes of both kinds and have backslash escapes. -/
def mysql : LexicalRules where
  isNameStart c := Text.isAlphabetic c || c == '_' || c == '$' || c == '@' || isForeign c
  isNamePart c :=
    Text.isAlphabetic c || c == '_' || c == '$' || c == '@' || isForeign c || c.isDigit
  nameQuotes := ['\x60']
  backslashEscapes := true
  spacedComments := true
  hashComments := true
  nestedComments := false
  returnEndsComment := false
  byteTexts := true
  markedTexts := false
  groupedDigits := false
  digitNames := true
  geometricOperators := false
  isOperatorPart _ := false

def ofDatabase : Database → LexicalRules
  | .postgresql => postgresql
  | .mssql => mssql
  | .mysql => mysql

end LexicalRules

end SemanticLayer.Sql
