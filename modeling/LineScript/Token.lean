import LineScript.Comparison

/-!
# Tokens

A token is a piece of one line: what kind of piece it is, its exact characters, and the
column of the first of them. The column past the last is not stored, it follows from the
other two.
-/

namespace LineScript

/-- The words that cannot be names. -/
inductive Keyword where
  | print | declare | loop | branch | otherwise | function
deriving DecidableEq

namespace Keyword

/-- Every reserved word. -/
def all : List Keyword := [.print, .declare, .loop, .branch, .otherwise, .function]

/-- How the word is written. -/
def spelling : Keyword → String
  | print => "print"
  | declare => "var"
  | loop => "while"
  | branch => "if"
  | otherwise => "else"
  | function => "func"

/-- The reserved word with the given characters, if there is one. -/
def ofChars? (word : List Char) : Option Keyword :=
  all.find? fun keyword => keyword.spelling.toList = word

end Keyword

/-- The kinds of token. `stray` is for characters that begin no other token, among them a
quotation that is not finished on its line. -/
inductive TokenKind where
  | keyword (word : Keyword)
  | comparison (op : Comparison)
  | equals | plus | semicolon
  | openBrace | closeBrace | openParen | closeParen
  | integer | quoted | name
  | comment
  | stray
deriving DecidableEq

namespace TokenKind

/-- The kind as token listings show it: fixed tokens by their spelling, the others by a word. -/
def label : TokenKind → String
  | keyword word => word.spelling
  | comparison op => op.spelling
  | equals => "="
  | plus => "+"
  | semicolon => ";"
  | openBrace => "\x7b"
  | closeBrace => "\x7d"
  | openParen => "("
  | closeParen => ")"
  | integer => "integer"
  | quoted => "string"
  | name => "identifier"
  | comment => "comment"
  | stray => "error"

/-- Whether the token may stand where a value is expected. -/
def isValue : TokenKind → Bool
  | integer | name => true
  | _ => false

end TokenKind

/-- A token of one line. -/
structure Token where
  kind : TokenKind
  text : List Char
  col : Nat
deriving DecidableEq

namespace Token

/-- The column past the last character. -/
def stop (token : Token) : Nat :=
  token.col + token.text.length

/-- The characters between the quotes of a quotation, and all characters of any other token. -/
def contents (token : Token) : List Char :=
  if token.kind = .quoted then (token.text.drop 1).dropLast else token.text

end Token

/-- The tokens before the first comment. -/
def codeTokens (tokens : List Token) : List Token :=
  tokens.takeWhile fun token => token.kind ≠ .comment

end LineScript
