/-!
Words of a line, as a shell reads them without expanding anything: blanks stand between words,
single quotes keep everything, double quotes keep everything but a backslash before a backslash or a
double quote, and a backslash outside quotes keeps the next character.
-/
namespace Emplace.Text

inductive WordsError where
  | noClosingQuote
  | noEscapedCharacter
  deriving DecidableEq, Repr

def WordsError.message : WordsError → String
  | .noClosingQuote => "No closing quotation"
  | .noEscapedCharacter => "No escaped character"

inductive WordMode where
  | between
  | bare
  | single
  | double
  | escape
  | doubleEscape
  deriving DecidableEq, Repr

def isGap (c : Char) : Bool :=
  c = ' ' || c = '\t' || c = '\r' || c = '\n'

/-- The words in the rest of a line; the word that is being read comes last character first. -/
def wordsFrom : WordMode → List Char → List Char → Except WordsError (List (List Char))
  | .between, _, [] => .ok []
  | .bare, word, [] => .ok [word.reverse]
  | .single, _, [] => .error .noClosingQuote
  | .double, _, [] => .error .noClosingQuote
  | .escape, _, [] => .error .noEscapedCharacter
  | .doubleEscape, _, [] => .error .noEscapedCharacter
  | .between, _, c :: rest =>
    if isGap c then wordsFrom .between [] rest
    else if c = '\\' then wordsFrom .escape [] rest
    else if c = '\'' then wordsFrom .single [] rest
    else if c = '"' then wordsFrom .double [] rest
    else wordsFrom .bare [c] rest
  | .bare, word, c :: rest =>
    if isGap c then (wordsFrom .between [] rest).map (word.reverse :: ·)
    else if c = '\\' then wordsFrom .escape word rest
    else if c = '\'' then wordsFrom .single word rest
    else if c = '"' then wordsFrom .double word rest
    else wordsFrom .bare (c :: word) rest
  | .single, word, c :: rest =>
    if c = '\'' then wordsFrom .bare word rest else wordsFrom .single (c :: word) rest
  | .double, word, c :: rest =>
    if c = '"' then wordsFrom .bare word rest
    else if c = '\\' then wordsFrom .doubleEscape word rest
    else wordsFrom .double (c :: word) rest
  | .escape, word, c :: rest => wordsFrom .bare (c :: word) rest
  | .doubleEscape, word, c :: rest =>
    if c = '\\' ∨ c = '"' then wordsFrom .double (c :: word) rest
    else wordsFrom .double (c :: '\\' :: word) rest

def words (line : List Char) : Except WordsError (List (List Char)) :=
  wordsFrom .between [] line

/-- The inside of single quotes for a word: a single quote is written outside of them. -/
def insideQuotes : List Char → List Char
  | [] => []
  | c :: rest =>
    if c = '\'' then '\'' :: '\\' :: '\'' :: '\'' :: insideQuotes rest
    else c :: insideQuotes rest

def quoteWord (word : List Char) : List Char :=
  '\'' :: insideQuotes word ++ ['\'']

theorem wordsFrom_insideQuotes (word read rest : List Char) :
    wordsFrom .single read (insideQuotes word ++ rest) =
      wordsFrom .single (word.reverse ++ read) rest := by
  induction word generalizing read with
  | nil => simp [insideQuotes]
  | cons c more ih =>
    by_cases quote : c = '\''
    · subst quote
      simp [insideQuotes, wordsFrom, isGap, ih]
    · simp [insideQuotes, wordsFrom, quote, ih]

theorem words_quoteWord (word : List Char) : words (quoteWord word) = .ok [word] := by
  simp [words, quoteWord, wordsFrom, isGap, wordsFrom_insideQuotes]

end Emplace.Text
