/-
Reading TOML documents.

* `Toml.parse?`: the table of a document.

A document is a sequence of lines: an assignment, the header of a table, the
header of the next table of a list, or nothing; each may end in a comment.
-/
import QuorumStore.Toml.Scalar

namespace QuorumStore

namespace Toml

/-! ### Blanks and comments -/

/-- Whether a character is a space or a tab. -/
def isSpace (c : Char) : Bool :=
  c = ' ' || c = '\t'

/-- What follows spaces and tabs. -/
def skipSpace (cs : List Char) : List Char :=
  cs.dropWhile isSpace

/-- Whether a character may stand in a comment or in quotes: no control
character but the tab. -/
def isPlain (c : Char) : Bool :=
  c = '\t' || (32 ≤ c.toNat && c.toNat ≠ 127)

/-- What follows the end of a line. -/
def newline? : List Char → Option (List Char)
  | '\n' :: rest => some rest
  | '\r' :: '\n' :: rest => some rest
  | _ => none

/-- What follows a comment, if there is one. -/
def skipComment : List Char → List Char
  | '#' :: rest => rest.dropWhile isPlain
  | cs => cs

/-- What follows the rest of a line that may hold only a comment. -/
def lineEnd? (cs : List Char) : Option (List Char) :=
  match skipComment (skipSpace cs) with
  | [] => some []
  | rest => newline? rest

/-- What follows blanks, comments and line ends. -/
def skipBlank : Nat → List Char → List Char
  | 0, cs => cs
  | fuel + 1, cs =>
    let rest := skipComment (skipSpace cs)
    match newline? rest with
    | some rest => skipBlank fuel rest
    | none => rest

/-! ### Quoted texts -/

/-- A character by its number, unless it is a surrogate or no number at all. -/
def scalarValue? (digits : List Char) : Option Char :=
  if digits.all fun c => (Json.hexValue? c).isSome then
    let n := ofDigits 16 digits
    if n.isValidChar then some (Char.ofNat n) else none
  else none

/-- What an escape stands for, behind its backslash, and what follows. -/
def escape? : List Char → Option (Char × List Char)
  | 'b' :: rest => some (Char.ofNat 8, rest)
  | 't' :: rest => some ('\t', rest)
  | 'n' :: rest => some ('\n', rest)
  | 'f' :: rest => some (Char.ofNat 12, rest)
  | 'r' :: rest => some ('\r', rest)
  | '"' :: rest => some ('"', rest)
  | '\\' :: rest => some ('\\', rest)
  | 'u' :: rest =>
    if (rest.take 4).length = 4 then (scalarValue? (rest.take 4)).map fun c => (c, rest.drop 4)
    else none
  | 'U' :: rest =>
    if (rest.take 8).length = 8 then (scalarValue? (rest.take 8)).map fun c => (c, rest.drop 8)
    else none
  | _ => none

/-- Reads a text on one line up to its quotation mark.  Only in double quotes is
the backslash an escape. -/
def readLineText (quote : Char) : Nat → String → List Char → Option (String × List Char)
  | 0, _, _ => none
  | _ + 1, _, [] => none
  | fuel + 1, out, c :: rest =>
    if c = quote then some (out, rest)
    else if c = '\\' ∧ quote = '"' then
      match escape? rest with
      | some (e, rest) => readLineText quote fuel (out.push e) rest
      | none => none
    else if isPlain c then readLineText quote fuel (out.push c) rest
    else none

/-- What follows a backslash at the end of a line: the next character that is
neither blank nor a line end. -/
def continued? (fuel : Nat) (cs : List Char) : Option (List Char) :=
  (newline? (skipSpace cs)).map (skip fuel)
where
  /-- What follows blanks and line ends. -/
  skip : Nat → List Char → List Char
    | 0, cs => cs
    | fuel + 1, cs =>
      let rest := skipSpace cs
      match newline? rest with
      | some rest => skip fuel rest
      | none => rest

/-- Reads a text over several lines up to three quotation marks; up to two more
may stand in front of these. -/
def readBlockText (quote : Char) : Nat → String → List Char → Option (String × List Char)
  | 0, _, _ => none
  | _ + 1, _, [] => none
  | fuel + 1, out, c :: rest =>
    if c = quote then
      let quotes := c :: rest.takeWhile (· = quote)
      let rest := rest.dropWhile (· = quote)
      let marks (n : Nat) : String := out ++ String.ofList (List.replicate n quote)
      if quotes.length < 3 then readBlockText quote fuel (marks quotes.length) rest
      else if quotes.length ≤ 5 then some (marks (quotes.length - 3), rest)
      else none
    else if c = '\\' ∧ quote = '"' then
      match escape? rest with
      | some (e, rest) => readBlockText quote fuel (out.push e) rest
      | none =>
        match continued? fuel rest with
        | some rest => readBlockText quote fuel out rest
        | none => none
    else
      match newline? (c :: rest) with
      | some rest => readBlockText quote fuel (out.push '\n') rest
      | none => if isPlain c then readBlockText quote fuel (out.push c) rest else none

/-- Reads a text behind its first quotation mark.  A line end right behind three
marks does not count. -/
def readText (fuel : Nat) (quote : Char) (cs : List Char) : Option (String × List Char) :=
  match cs with
  | a :: b :: rest =>
    if a = quote ∧ b = quote then readBlockText quote fuel "" ((newline? rest).getD rest)
    else readLineText quote fuel "" cs
  | _ => readLineText quote fuel "" cs

/-! ### Keys -/

/-- How many names a key may have, and how deep values may be nested. -/
def nestingLimit : Nat := 80

/-- Whether a character may stand in a name without quotes. -/
def isBare (c : Char) : Bool :=
  c.isAlphanum || c = '_' || c = '-'

/-- One name of a key. -/
def name? (fuel : Nat) : List Char → Option (String × List Char)
  | '"' :: rest => readLineText '"' fuel "" rest
  | '\'' :: rest => readLineText '\'' fuel "" rest
  | cs =>
    match cs.takeWhile isBare with
    | [] => none
    | bare => some (String.ofList bare, cs.dropWhile isBare)

/-- The names of a key, with blanks around them. -/
def names? : Nat → List Char → Option (List String × List Char)
  | 0, _ => none
  | fuel + 1, cs => do
    let (name, rest) ← name? fuel (skipSpace cs)
    match skipSpace rest with
    | '.' :: rest =>
      let (names, rest) ← names? fuel rest
      some (name :: names, rest)
    | rest => some ([name], rest)

/-- A key: the names of the tables on its way, its own name, and what follows. -/
def key? (fuel : Nat) (cs : List Char) : Option (List String × String × List Char) := do
  let (names, rest) ← names? fuel cs
  if nestingLimit ≤ names.length then none
  else some (names.dropLast, ← names.getLast?, rest)

/-! ### Values -/

/-- Whether a character may stand in a word. -/
def isWord (c : Char) : Bool :=
  c.isAlphanum || c = '_' || c = '-' || c = '+' || c = '.' || c = ':'

/-- The value of the word in front.  The time of a date may be a word of its
own. -/
def readWord (cs : List Char) : Option (Toml × List Char) :=
  let word := cs.takeWhile isWord
  let rest := cs.dropWhile isWord
  match rest with
  | ' ' :: more =>
    let time := more.takeWhile isWord
    if isDate word ∧ time ≠ [] then
      if isTimeWithOffset time then some (.date, more.dropWhile isWord) else none
    else (scalar? word).map fun v => (v, rest)
  | _ => (scalar? word).map fun v => (v, rest)

mutual

/-- The value in front; `depth` is how much deeper values may be nested. -/
def readValue : Nat → Nat → List Char → Option (Toml × List Char)
  | 0, _, _ => none
  | fuel + 1, depth, cs =>
    match cs with
    | '"' :: rest => (readText fuel '"' rest).map fun (s, rest) => (.string s, rest)
    | '\'' :: rest => (readText fuel '\'' rest).map fun (s, rest) => (.string s, rest)
    | '[' :: rest => if depth = 0 then none else readItems fuel (depth - 1) [] rest
    | '\x7b' :: rest =>
      if depth = 0 then none
      else
        match skipSpace rest with
        | '\x7d' :: rest => some (.table [], rest)
        | rest => readInline fuel (depth - 1) [] rest
    | cs => readWord cs

/-- The items that follow those in `seen`, which are kept last first. -/
def readItems : Nat → Nat → List Toml → List Char → Option (Toml × List Char)
  | 0, _, _, _ => none
  | fuel + 1, depth, seen, cs =>
    match skipBlank fuel cs with
    | ']' :: rest => some (.array seen.reverse, rest)
    | rest =>
      match readValue fuel depth rest with
      | none => none
      | some (v, rest) =>
        match skipBlank fuel rest with
        | ',' :: rest => readItems fuel depth (v :: seen) rest
        | ']' :: rest => some (.array (v :: seen).reverse, rest)
        | _ => none

/-- The assignments of a table on one line that follow those made already. -/
def readInline : Nat → Nat → Entries → List Char → Option (Toml × List Char)
  | 0, _, _, _ => none
  | fuel + 1, depth, es, cs =>
    match key? fuel cs with
    | some (path, name, '=' :: rest) =>
      match readValue fuel depth (skipSpace rest) with
      | none => none
      | some (v, rest) =>
        match Entries.assign path name v .header es, skipSpace rest with
        | some es, ',' :: rest => readInline fuel depth es rest
        | some es, '\x7d' :: rest => some (.table (finishEntries es), rest)
        | _, _ => none
    | _ => none

end

/-! ### Documents -/

/-- A document of which some lines have been read. -/
structure Draft where
  /-- What it holds so far. -/
  root : Entries
  /-- The path of the table that assignments go to. -/
  current : List String

/-- Assigns a value in the table of the last header. -/
def Draft.assign (d : Draft) (path : List String) (name : String) (v : Toml) : Option Draft :=
  (Entries.descend .path (fun _ es => es.assign path name v .header) .header d.current d.root).map
    fun root => { d with root }

/-- Reads the header of a table. -/
def Draft.openTable (d : Draft) (path : List String) (name : String) : Option Draft :=
  (Entries.descend .path (fun _ es => es.openTable name) .header path d.root).map
    fun root => ⟨root, path ++ [name]⟩

/-- Reads the header of the next table of a list. -/
def Draft.appendTable (d : Draft) (path : List String) (name : String) : Option Draft :=
  (Entries.descend .path (fun _ es => es.appendTable name) .header path d.root).map
    fun root => ⟨root, path ++ [name]⟩

/-- Reads the lines of a document. -/
def readLines : Nat → Draft → List Char → Option Draft
  | 0, _, _ => none
  | fuel + 1, d, cs =>
    match skipSpace cs with
    | [] => some d
    | '[' :: '[' :: rest =>
      match key? fuel rest with
      | some (path, name, ']' :: ']' :: rest) =>
        match d.appendTable path name, lineEnd? rest with
        | some d, some rest => readLines fuel d rest
        | _, _ => none
      | _ => none
    | '[' :: rest =>
      match key? fuel rest with
      | some (path, name, ']' :: rest) =>
        match d.openTable path name, lineEnd? rest with
        | some d, some rest => readLines fuel d rest
        | _, _ => none
      | _ => none
    | cs =>
      match lineEnd? cs with
      | some rest => readLines fuel d rest
      | none =>
        match key? fuel cs with
        | some (path, name, '=' :: rest) =>
          match readValue fuel (nestingLimit - 1) (skipSpace rest) with
          | none => none
          | some (v, rest) =>
            match d.assign path name v, lineEnd? rest with
            | some d, some rest => readLines fuel d rest
            | _, _ => none
        | _ => none

/-- The text without the mark that tells the order of bytes. -/
def skipMark : List Char → List Char
  | c :: rest => if c.toNat = 0xFEFF then rest else c :: rest
  | [] => []

/-- The names of a document with their values. -/
def parse? (s : String) : Option (List (String × Toml)) :=
  let cs := skipMark s.toList
  (readLines (2 * cs.length + 10) ⟨[], []⟩ cs).map fun d => finishEntries d.root

end Toml

end QuorumStore
