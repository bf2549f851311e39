/-! Tokens of SQL text. A query is written as a list of tokens, so that its placeholders and the tables its
columns are read from are seen in the list, and becomes text in `Sql.text` alone. -/
namespace LeadTime.Sql

inductive Token where
  /-- Words, marks and blanks of the language. -/
  | fixed (text : String)
  /-- A name without a table before it. -/
  | name (text : String)
  | column (table name : String)
  /-- A name whose value is bound later. -/
  | placeholder (name : String)
  | quoted (text : String)
  /-- Text that was handed in as SQL. -/
  | verbatim (text : String)
  deriving DecidableEq, Repr

def Token.text : Token → String
  | .fixed s => s
  | .name s => s
  | .column t c => t ++ "." ++ c
  | .placeholder p => ":" ++ p
  | .quoted s => "'" ++ s ++ "'"
  | .verbatim s => s

def Token.placeholder? : Token → Option String
  | .placeholder p => some p
  | _ => none

def Token.table? : Token → Option String
  | .column t _ => some t
  | _ => none

def text : List Token → String
  | [] => ""
  | token :: rest => token.text ++ text rest

/-- Something that is read off tokens, and nothing of it off the words of the language. -/
structure View (α : Type) where
  see? : Token → Option α
  fixed : ∀ s, see? (.fixed s) = none

namespace View

def of {α : Type} (v : View α) (tokens : List Token) : List α := tokens.filterMap v.see?

def placeholders : View String := ⟨Token.placeholder?, fun _ => rfl⟩

def tables : View String := ⟨Token.table?, fun _ => rfl⟩

end View

/-- The names of the placeholders, in order. -/
abbrev placeholders (tokens : List Token) : List String := View.placeholders.of tokens

/-- The tables that columns are read from, in order. -/
abbrev tables (tokens : List Token) : List String := View.tables.of tokens

/-- Parts with a separator between each two. -/
def separated (separator : String) : List (List Token) → List Token
  | [] => []
  | [part] => part
  | part :: rest => part ++ .fixed separator :: separated separator rest

@[simp] theorem text_nil : text [] = "" := rfl

@[simp] theorem text_cons (token : Token) (rest : List Token) :
    text (token :: rest) = token.text ++ text rest := rfl

@[simp] theorem text_append (left right : List Token) :
    text (left ++ right) = text left ++ text right := by
  induction left with
  | nil => simp
  | cons token rest ih => simp [ih, String.append_assoc]

end LeadTime.Sql
