import PacketPolicy.Text.Bytes

namespace PacketPolicy
namespace Csv

inductive Offence where
  | bareQuote
  | openQuote
  deriving DecidableEq, Repr

def Offence.message : Offence → String
  | .bareQuote => "bare \" in non-quoted-field"
  | .openQuote => "extraneous or missing \" in quoted-field"

structure Position where
  line : Nat
  column : Nat
  deriving DecidableEq, Repr

inductive Error where
  | noRecord
  | malformed (start : Nat) (position : Position) (offence : Offence)
  deriving DecidableEq, Repr

def Error.message : Error → String
  | .noRecord => "EOF"
  | .malformed start position offence =>
    (if start == position.line then "" else "record on line " ++ toString start ++ "; ")
      ++ "parse error on line " ++ toString position.line ++ ", column "
        ++ toString position.column ++ ": "
      ++ offence.message

inductive Place where
  | start
  | bare
  | quoted
  | closing (column : Nat)
  deriving DecidableEq, Repr

def fieldsFrom (start : Nat) (place : Place) (p : Position) (fields : List String)
    (field : List Char) :
    List Char → Except Error (List String)
  | [] =>
    if place == .quoted then .error (.malformed start p .openQuote)
    else .ok (finish fields field).reverse
  | c :: cs =>
    let next : Position := ⟨p.line, p.column + c.utf8Size⟩
    match place with
    | .start =>
      if c == '"' then fieldsFrom start .quoted next fields field cs
      else if c == ',' then fieldsFrom start .start next (finish fields field) [] cs
      else if c == '\n' then .ok (finish fields field).reverse
      else fieldsFrom start .bare next fields (c :: field) cs
    | .bare =>
      if c == '"' then .error (.malformed start p .bareQuote)
      else if c == ',' then fieldsFrom start .start next (finish fields field) [] cs
      else if c == '\n' then .ok (finish fields field).reverse
      else fieldsFrom start .bare next fields (c :: field) cs
    | .quoted =>
      if c == '"' then fieldsFrom start (.closing p.column) next fields field cs
      else if c == '\n' && !cs.isEmpty then
        fieldsFrom start .quoted ⟨p.line + 1, 1⟩ fields (c :: field) cs
      else fieldsFrom start .quoted next fields (c :: field) cs
    | .closing column =>
      if c == '"' then fieldsFrom start .quoted next fields (c :: field) cs
      else if c == ',' then fieldsFrom start .start next (finish fields field) [] cs
      else if c == '\n' then .ok (finish fields field).reverse
      else .error (.malformed start ⟨p.line, column⟩ .openQuote)
where
  finish (fields : List String) (field : List Char) : List String :=
    String.ofList field.reverse :: fields

/--
Reads line ends of two characters as one, and drops the first of these at the end of the text.
-/
def normalize : List Char → List Char
  | [] => []
  | '\r' :: cs => if cs.isEmpty || cs.head? == some '\n' then normalize cs else '\r' :: normalize cs
  | c :: cs => c :: normalize cs

def record (s : String) : Except Error (List String) :=
  let cs := normalize s.toList
  let blank := cs.takeWhile (· == '\n')
  match cs.drop blank.length with
  | [] => .error .noRecord
  | cs => fieldsFrom (blank.length + 1) .start ⟨blank.length + 1, 1⟩ [] [] cs

end Csv
end PacketPolicy
