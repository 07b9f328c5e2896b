/-!
# Kinds of tokens

The lexical categories of the language: punctuation and operators, keywords,
and the three categories whose tokens differ in their literal.
-/

namespace PocketSql

inductive Kind where
  | eof
  | comma | concat | slash | dot | equal | greater | greaterEqual | leftParen | less | lessEqual
  | minus | star | notEqual | plus | rightParen | semicolon
  | kwAnd | kwAutoIncrement | kwCreate | kwDefault | kwDelete | kwFalse | kwFrom | kwInsert
  | kwInto | kwNot | kwNull | kwOr | kwSelect | kwSet | kwTable | kwTrue | kwUpdate | kwValues
  | kwWhere
  | kwBoolean | kwInteger | kwNumber | kwTimestamp | kwVarchar
  | identifier | numberLiteral | stringLiteral
deriving DecidableEq

namespace Kind

/-- The spelling of a symbol or keyword, and the name of any other kind. -/
def text : Kind → String
  | eof => "EOF"
  | comma => ","
  | concat => "||"
  | slash => "/"
  | dot => "."
  | equal => "="
  | greater => ">"
  | greaterEqual => ">="
  | leftParen => "("
  | less => "<"
  | lessEqual => "<="
  | minus => "-"
  | star => "*"
  | notEqual => "!="
  | plus => "+"
  | rightParen => ")"
  | semicolon => ";"
  | kwAnd => "AND"
  | kwAutoIncrement => "AUTOINCREMENT"
  | kwCreate => "CREATE"
  | kwDefault => "DEFAULT"
  | kwDelete => "DELETE"
  | kwFalse => "FALSE"
  | kwFrom => "FROM"
  | kwInsert => "INSERT"
  | kwInto => "INTO"
  | kwNot => "NOT"
  | kwNull => "NULL"
  | kwOr => "OR"
  | kwSelect => "SELECT"
  | kwSet => "SET"
  | kwTable => "TABLE"
  | kwTrue => "TRUE"
  | kwUpdate => "UPDATE"
  | kwValues => "VALUES"
  | kwWhere => "WHERE"
  | kwBoolean => "BOOLEAN"
  | kwInteger => "INTEGER"
  | kwNumber => "NUMBER"
  | kwTimestamp => "TIMESTAMP"
  | kwVarchar => "VARCHAR"
  | identifier => "Ident"
  | numberLiteral => "NumberLiteral"
  | stringLiteral => "StringLiteral"

/-- Punctuation and operators, every one before the symbols it starts with. -/
def symbols : List Kind :=
  [concat, greaterEqual, lessEqual, notEqual,
    comma, slash, dot, equal, greater, leftParen, less, minus, star, plus, rightParen, semicolon]

def keywords : List Kind :=
  [kwAnd, kwAutoIncrement, kwCreate, kwDefault, kwDelete, kwFalse, kwFrom, kwInsert, kwInto,
    kwNot, kwNull, kwOr, kwSelect, kwSet, kwTable, kwTrue, kwUpdate, kwValues, kwWhere,
    kwBoolean, kwInteger, kwNumber, kwTimestamp, kwVarchar]

/-- The longest symbol at the front of a text. -/
def symbol? (text : List Char) : Option Kind :=
  symbols.find? fun kind => kind.text.toList.isPrefixOf text

/-- The keyword that a word in small letters stands for. -/
def keyword? (word : List Char) : Option Kind :=
  keywords.find? fun kind => kind.text.toList.map Char.toLower = word

/-- How tightly a binary operator binds; zero for every other kind. -/
def precedence : Kind → Nat
  | kwOr => 1
  | kwAnd => 2
  | equal | notEqual | less | lessEqual | greater | greaterEqual => 3
  | plus | minus | concat => 4
  | star | slash => 5
  | _ => 0

def isComparison : Kind → Bool
  | equal | notEqual | less | lessEqual | greater | greaterEqual => true
  | _ => false

def isArithmetic : Kind → Bool
  | plus | minus | star | slash => true
  | _ => false

end Kind

end PocketSql
