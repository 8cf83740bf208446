/-!
This module contains the division of a line into words as a shell does it. Quotes and backslashes
keep white space inside a word, and a word that starts with a number sign starts a comment.
-/

namespace PacketPolicy
namespace Script

inductive WordError where
  | openQuote
  | openEscape
  deriving DecidableEq, Repr

def WordError.message : WordError → String
  | .openQuote => "EOF found when expecting closing quote"
  | .openEscape => "EOF found after escape character"

def separates (c : Char) : Bool :=
  c == ' ' || c == '\t' || c == '\r' || c == '\n'

inductive Place where
  | between
  | word
  | single
  | double
  | escaped
  | doubleEscaped
  | comment
  deriving DecidableEq, Repr

def wordsFrom (place : Place) (text : List Char) : List Char → Except WordError (List String)
  | [] =>
    match place with
    | .between => .ok []
    | .comment => .ok []
    | .word => .ok [String.ofList text.reverse]
    | .single => .error .openQuote
    | .double => .error .openQuote
    | .escaped => .error .openEscape
    | .doubleEscaped => .error .openEscape
  | c :: cs =>
    match place with
    | .between =>
      if separates c then wordsFrom .between [] cs
      else if c == '"' then wordsFrom .double [] cs
      else if c == '\'' then wordsFrom .single [] cs
      else if c == '\\' then wordsFrom .escaped [] cs
      else if c == '#' then wordsFrom .comment [] cs
      else wordsFrom .word [c] cs
    | .word =>
      if separates c then do
        let rest ← wordsFrom .between [] cs
        return String.ofList text.reverse :: rest
      else if c == '"' then wordsFrom .double text cs
      else if c == '\'' then wordsFrom .single text cs
      else if c == '\\' then wordsFrom .escaped text cs
      else wordsFrom .word (c :: text) cs
    | .single => if c == '\'' then wordsFrom .word text cs else wordsFrom .single (c :: text) cs
    | .double =>
      if c == '"' then wordsFrom .word text cs
      else if c == '\\' then wordsFrom .doubleEscaped text cs
      else wordsFrom .double (c :: text) cs
    | .escaped => wordsFrom .word (c :: text) cs
    | .doubleEscaped => wordsFrom .double (c :: text) cs
    | .comment => if c == '\n' then wordsFrom .between [] cs else wordsFrom .comment [] cs

def words (line : List Char) : Except WordError (List String) :=
  wordsFrom .between [] line

end Script
end PacketPolicy
