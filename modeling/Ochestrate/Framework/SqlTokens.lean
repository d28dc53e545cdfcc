import Ochestrate.Framework.Strings

/-!
# The words of a SQL statement

A statement of MySQL is read as words, text literals and other signs, without its
comments. `comparedLiterals` lists the literals that a statement compares a column
with, by any operator and in lists, and `Compares` says that it has the literal.
-/

namespace Ochestrate

inductive SqlToken
  | word (name : List Char)
  | literal (text : List Char)
  | sign (c : Char)
  deriving DecidableEq

namespace Sql

/-- The character that is written behind a backslash. -/
def escaped : Char → Char
  | 'n' => '\n'
  | 't' => '\t'
  | 'r' => '\r'
  | c => c

/-- What is between quotes, where a doubled quote stands for one, and what
follows. Names have no escapes. -/
def quoted (quote : Char) : List Char → List Char × List Char
  | [] => ([], [])
  | [c] => if c = quote then ([], []) else ([c], [])
  | c :: d :: cs =>
    if c = '\\' ∧ quote ≠ '`' then
      let r := quoted quote cs
      (escaped d :: r.1, r.2)
    else if c = quote then
      if d = quote then
        let r := quoted quote cs
        (quote :: r.1, r.2)
      else ([], d :: cs)
    else
      let r := quoted quote (d :: cs)
      (c :: r.1, r.2)

/-- What follows a comment in `/*` and `*/`. -/
def afterBlock : List Char → List Char
  | '*' :: '/' :: cs => cs
  | _ :: cs => afterBlock cs
  | [] => []

/-- The characters of names; a qualified name is one word. -/
def isWordChar (c : Char) : Bool := c.isAlphanum || c = '_' || c = '$' || c = '.' || 128 ≤ c.toNat

/-- The tokens of a text, at most as many as the first argument. -/
def tokensFuel : Nat → List Char → List SqlToken
  | 0, _ => []
  | _ + 1, [] => []
  | fuel + 1, c :: cs =>
    if c = '\'' ∨ c = '"' then .literal (quoted c cs).1 :: tokensFuel fuel (quoted c cs).2
    else if c = '`' then .word ((quoted c cs).1.map Char.toLower) :: tokensFuel fuel (quoted c cs).2
    else if c = '#' then tokensFuel fuel (cs.dropWhile (· ≠ '\n'))
    -- two dashes are a comment if white space follows
    else if c = '-' ∧ cs.head? = some '-' ∧ cs.tail.head?.all isSpace then tokensFuel fuel (cs.dropWhile (· ≠ '\n'))
    else if c = '/' ∧ cs.head? = some '*' then tokensFuel fuel (afterBlock cs.tail)
    else if isWordChar c then
      .word ((c :: cs.takeWhile isWordChar).map Char.toLower) :: tokensFuel fuel (cs.dropWhile isWordChar)
    else if isSpace c then tokensFuel fuel cs
    else .sign c :: tokensFuel fuel cs

def tokens (sql : String) : List SqlToken := tokensFuel sql.toList.length sql.toList

/-- The word names the column, with or without its table. -/
def isColumn (column : String) (name : List Char) : Bool :=
  name = column.toList || ('.' :: column.toList).isSuffixOf name

/-- A part of an operator of comparison. -/
def isOperator : SqlToken → Bool
  | .sign c => ['=', '<', '>', '!'].contains c
  | .word name => ["in", "not", "like", "regexp", "rlike", "is", "binary"].contains (.ofList name)
  | .literal _ => false

/-- The literals of a list. -/
def literalList : List SqlToken → List String
  | .literal text :: .sign ',' :: rest => .ofList text :: literalList rest
  | .literal text :: _ => [.ofList text]
  | _ => []

/-- The literals that what stands before is compared with. -/
def comparedWith : List SqlToken → List String
  | .word ['b', 'e', 't', 'w', 'e', 'e', 'n'] :: .literal low :: .word ['a', 'n', 'd'] :: .literal high :: _ =>
    [.ofList low, .ofList high]
  | token :: rest => if isOperator token then literalList (rest.dropWhile isOperator) else []
  | [] => []

/-- The column is what stands before is compared with. -/
def comparedWithColumn (column : String) : List SqlToken → Bool
  | token :: rest =>
    isOperator token &&
      match rest.dropWhile isOperator with
      | .word name :: _ => isColumn column name
      | _ => false
  | [] => false

/-- The literals that the first tokens compare the column with. -/
def comparedFirst (column : String) : List SqlToken → List String
  | .word name :: rest => if isColumn column name then comparedWith rest else []
  | .literal text :: rest => if comparedWithColumn column rest then [.ofList text] else []
  | _ => []

/-- The literals that the statement compares the column with; parentheses change
nothing. -/
def comparedLiterals (column sql : String) : List String :=
  ((tokens sql).filter fun token => token ≠ .sign '(' ∧ token ≠ .sign ')').tails.flatMap (comparedFirst column)

/-- The statement compares the column with the literal, as far as this reading
goes: it has no values that are computed. -/
def Compares (column sql literal : String) : Prop := literal ∈ comparedLiterals column sql

instance (column sql literal : String) : Decidable (Compares column sql literal) :=
  inferInstanceAs (Decidable (literal ∈ comparedLiterals column sql))

/-- Comparisons in all forms, and none in comments and literals. -/
example : comparedLiterals "tenant_id" "SELECT 'tenant_id' = \"x\" # tenant_id = 'y'\n
    FROM t WHERE t.tenant_id = ('a') OR `tenant_id` IN ('b', \"c\") OR 'd' <> tenant_id -- tenant_id = 'z'" =
    ["a", "b", "c", "d"] := by decide +kernel

end Sql

end Ochestrate
