import Chaperone.Machine.Shell.Source

/-!
# Reading scripts

A script is read line by line; a line ends only after the last of the commands that began in it.
The readers look one token ahead.  Each takes as fuel a number well above the length of what it
reads.
-/

namespace Chaperone.Machine.Shell

/-- A place in a script: the token there, and what stands behind it. -/
structure Cursor where
  token : Token
  rest : Source
  deriving Inhabited

/-- A complaint about a token, and what was expected instead. -/
def Cursor.unexpected {α : Type} (c : Cursor) (inPlace : Bool) (expected : Option String) :
    Except Complaint α :=
  c.rest.complain ("Syntax error: " ++ c.token.describe inPlace ++ " unexpected" ++
    match expected with
    | some expected => " (expecting " ++ expected ++ ")"
    | none => "")

/-- Where a run of pieces stands, which says what its characters mean and where it ends. -/
inductive Context where
  /-- In a word, which a separator ends. -/
  | word
  /-- Between double quotes. -/
  | quotes
  /-- Behind the name of a parameter, up to a brace. -/
  | braces (quoted : Bool)
  /-- In a text that has no end of its own. -/
  | document
  /-- In an expression with some open parentheses, up to two more closing ones. -/
  | expression (depth : Nat)
  deriving DecidableEq

/-- Whether characters are taken as in double quotes. -/
def Context.quoted : Context → Bool
  | .word => false
  | .braces quoted => quoted
  | _ => true

/-- Whether a character loses its meaning after a backslash in double quotes. -/
def Context.escapes (context : Context) (c : Char) : Bool :=
  c == '\\' || c == '\x60' || c == '$' || (c == '"' && context != .document) ||
    (c == '\x7d' && context == .braces true)

/-- The ends of commands in a list. -/
def joinCommands (before next : Command) : Command :=
  match before with
  | .nothing => next
  | before => .sequence before next

/-- What is said when the fuel is used up. -/
def tooDeep : String := "Syntax error: too deep"

mutual

/-- A run of pieces; `done` holds those before, last one first. -/
def pieces (fuel : Nat) (context : Context) (s : Source) (done : List Piece) :
    Except Complaint (Word × Source) :=
  match fuel with
  | 0 => s.complain tooDeep
  | fuel + 1 =>
    let quoted := context.quoted
    let plain (text : List Char) : Except Complaint (Word × Source) :=
      pieces fuel context (s.advance text.length) (addText (String.ofList text) quoted done)
    match s.text with
    | [] =>
      match context with
      | .word | .document => return (done.reverse, s)
      | .quotes | .braces true => s.complain "Syntax error: Unterminated quoted string"
      | .braces false => s.complain "Syntax error: Missing '\x7d'"
      | .expression _ => s.complain "Syntax error: Missing '))'"
    | '\\' :: '\n' :: _ => pieces fuel context (s.advance 2) done
    | '\\' :: c :: _ =>
      if quoted && !context.escapes c then
        pieces fuel context (s.advance 2) (addText (String.ofList ['\\', c]) true done)
      else pieces fuel context (s.advance 2) (addText (String.singleton c) true done)
    | '$' :: _ => do
      let (piece, s) ← dollar fuel quoted (s.advance 1)
      match piece with
      | .text text quoted => pieces fuel context s (addText text quoted done)
      | piece => pieces fuel context s (piece :: done)
    | '\x60' :: rest =>
      match backquoted quoted [] rest with
      | none => s.complainOpen "Syntax error: EOF in backquote substitution"
      | some (inside, after) => do
        let first ← read fuel { text := inside }
        let (command, last) ← list fuel false true .nothing first
        match last.token with
        | .finish =>
          pieces fuel context (s.advance (s.text.length - after.length))
            (.output command quoted :: done)
        | _ => last.unexpected true none
    | '"' :: _ =>
      match context with
      | .quotes => return (done.reverse, s.advance 1)
      | .document | .expression _ => plain ['"']
      | _ => do
        let (inside, s) ← pieces fuel .quotes (s.advance 1) []
        let inside := if inside.isEmpty then [.text "" true] else inside
        pieces fuel context s (inside.reverse ++ done)
    | '\x7d' :: _ =>
      match context with
      | .braces _ => return (done.reverse, s.advance 1)
      | _ => plain ['\x7d']
    | '\'' :: rest =>
      if quoted then plain ['\'']
      else
        let inside := rest.takeWhile (· != '\'')
        if inside.length = rest.length then
          s.complainOpen "Syntax error: Unterminated quoted string"
        else
          pieces fuel context (s.advance (inside.length + 2))
            (addText (String.ofList inside) true done)
    | '(' :: _ =>
      match context with
      | .word => return (done.reverse, s)
      | .expression depth =>
        pieces fuel (.expression (depth + 1)) (s.advance 1) (addText "(" true done)
      | _ => plain ['(']
    | ')' :: rest =>
      match context with
      | .word => return (done.reverse, s)
      | .expression (depth + 1) =>
        pieces fuel (.expression depth) (s.advance 1) (addText ")" true done)
      | .expression 0 =>
        if rest.head? = some ')' then return (done.reverse, s.advance 2) else plain [')']
      | _ => plain [')']
    | c :: rest =>
      if context = .word && separators.contains c then return (done.reverse, s)
      else
        let more := rest.takeWhile fun c => c.isAlphanum || c == '_'
        plain (c :: more)

/-- What stands after a dollar sign. -/
def dollar (fuel : Nat) (quoted : Bool) (s : Source) : Except Complaint (Piece × Source) :=
  match fuel with
  | 0 => s.complain tooDeep
  | fuel + 1 =>
    match s.text with
    | '(' :: '(' :: _ => do
      let (expression, s) ← pieces fuel (.expression 0) (s.advance 2) []
      return (.arithmetic expression quoted, s)
    | '(' :: _ => do
      let first ← read fuel (s.advance 1)
      let (command, last) ← list fuel false true .nothing first
      match last.token with
      | .operator ")" => return (.output command quoted, last.rest)
      | _ => last.unexpected true (some (Token.quote ")"))
    | '\x7b' :: '#' :: rest =>
      -- the number sign may be the parameter itself
      let isWhole (name : String) : Bool := (rest.drop name.length).head? = some '\x7d'
      match (parameterNameInBraces rest).filter isWhole with
      | some name => return (.parameter name .length [] quoted, s.advance (name.length + 3))
      | none => parameter fuel quoted "#" (s.advance 2)
    | '\x7b' :: rest =>
      match parameterNameInBraces rest with
      | some name => parameter fuel quoted name (s.advance (1 + name.length))
      | none => do
        let (_, s) ← pieces fuel (.braces quoted) (s.advance 1) []
        return (.parameter "" .unknown [] quoted, s)
    | text =>
      match parameterName text with
      | some name => return (.parameter name .value [] quoted, s.advance name.length)
      | none => return (.text "$" quoted, s)

/-- What stands after the name of a parameter in braces. -/
def parameter (fuel : Nat) (quoted : Bool) (name : String) (s : Source) :
    Except Complaint (Piece × Source) :=
  match fuel with
  | 0 => s.complain tooDeep
  | fuel + 1 =>
    if s.text.head? = some '\x7d' then return (.parameter name .value [] quoted, s.advance 1)
    else do
      let (use, width, pattern) := useOf s.text
      let (other, s) ← pieces fuel (.braces (quoted && !pattern)) (s.advance width) []
      return (.parameter name use other quoted, s)

/-- The next token. -/
def read (fuel : Nat) (s : Source) : Except Complaint Cursor :=
  match fuel with
  | 0 => s.complain tooDeep
  | fuel + 1 =>
    let s := skipBlanks fuel s
    match mark? s.text with
    | some (.newline, _) => return ⟨.newline, s.nextLine⟩
    | some (token, width) => return ⟨token, s.advance width⟩
    | none => do
      let (word, s) ← pieces fuel .word s []
      return ⟨.word word, s⟩

/-- The source after the end of the line, which must not end inside a word. -/
def lineEnd (fuel : Nat) (s : Source) : Except Complaint Source :=
  match fuel with
  | 0 => s.complain tooDeep
  | fuel + 1 => do
    let c ← read fuel s
    match c.token with
    | .newline | .finish => return c.rest
    | _ => lineEnd fuel c.rest

/-- What stands after a redirection operator. -/
def target (fuel : Nat) (fd : Nat) (direction : Direction) (strip : Bool) (s : Source) :
    Except Complaint (Redirection × Cursor) :=
  match fuel with
  | 0 => s.complain tooDeep
  | fuel + 1 => do
    let c ← read fuel s
    match direction, c.token with
    | .document, .word _ =>
      let (last, quoted, s) := delimiter fuel none false [] (skipBlanks fuel s)
      let (text, line) ← match s.detour with
        | some place => pure place
        | none =>
          let after ← lineEnd fuel s
          pure (after.text, after.line)
      let document := documentAt fuel strip last [] text line
      let word ← if quoted then pure [.text (String.ofList document.body) true]
        else do
          let (word, _) ← pieces fuel .document { text := document.body, line } []
          pure word
      return (.of fd .document word, ← read fuel { s with
        detour := some (document.after, document.line)
        openEnd := s.openEnd || !document.closed })
    | _, .word word => return (.of fd direction word, ← read fuel c.rest)
    | _, _ => c.unexpected false none

/-- The redirections after a command. -/
def redirections (fuel : Nat) (done : List Redirection) (c : Cursor) :
    Except Complaint (List Redirection × Cursor) :=
  match fuel with
  | 0 => c.rest.complain tooDeep
  | fuel + 1 => do
    match c.token with
    | .redirection fd direction strip =>
      let (redirection, c) ← target fuel fd direction strip c.rest
      redirections fuel (done ++ [redirection]) c
    | _ => return (done, c)

/-- The words and redirections of a simple command, or the definition of a function. -/
def simple (fuel : Nat) (line : Nat) (settings : List (String × Word)) (words : List Word)
    (done : List Redirection) (c : Cursor) : Except Complaint (Command × Cursor) :=
  match fuel with
  | 0 => c.rest.complain tooDeep
  | fuel + 1 => do
    match c.token with
    | .word word =>
      let after ← read fuel c.rest
      match if words.isEmpty then settingOf word else none with
      | some setting => simple fuel line (settings ++ [setting]) words done after
      | none => simple fuel line settings (words ++ [word]) done after
    | .redirection fd direction strip =>
      let (redirection, c) ← target fuel fd direction strip c.rest
      simple fuel line settings words (done ++ [redirection]) c
    | .operator "(" =>
      match settings, words, done with
      | [], [word], [] =>
        let closing ← read fuel c.rest
        match closing.token with
        | .operator ")" =>
          let name := (bare? word).getD ""
          if !isName name || specialBuiltins.contains name then
            closing.rest.complain "Syntax error: Bad function name"
          else
            let first ← skipNewlines fuel (← read fuel closing.rest)
            let (body, c) ← command fuel first
            return (.define name body, c)
        | _ => closing.unexpected false (some (Token.quote ")"))
      | _, _, _ => return (.simple line settings words done, c)
    | _ => return (.simple line settings words done, c)

/-- The next token that is not a newline. -/
def skipNewlines (fuel : Nat) (c : Cursor) : Except Complaint Cursor :=
  match fuel with
  | 0 => return c
  | fuel + 1 => do
    match c.token with
    | .newline => skipNewlines fuel (← read fuel c.rest)
    | _ => return c

/-- Takes a reserved word. -/
def expect (fuel : Nat) (text : String) (c : Cursor) : Except Complaint Cursor :=
  match fuel with
  | 0 => return c
  | fuel + 1 =>
    if c.token.reserved? = some text then read fuel c.rest
    else c.unexpected true (some (Token.quote text))

/-- One command of a pipeline. -/
def command (fuel : Nat) (c : Cursor) : Except Complaint (Command × Cursor) :=
  match fuel with
  | 0 => c.rest.complain tooDeep
  | fuel + 1 => do
    let line := c.rest.line
    let whole (body : Command) (c : Cursor) : Except Complaint (Command × Cursor) := do
      let (changes, c) ← redirections fuel [] c
      return (if changes.isEmpty then body else .redirected line body changes, c)
    match c.token with
    | .operator "(" =>
      let (body, c) ← list fuel false false .nothing (← read fuel c.rest)
      match c.token with
      | .operator ")" =>
        let (changes, c) ← redirections fuel [] (← read fuel c.rest)
        return (.subshell line body changes, c)
      | _ => c.unexpected true (some (Token.quote ")"))
    | .redirection _ _ _ => simple fuel line [] [] [] c
    | .word _ =>
      match c.token.reserved? with
      | none => simple fuel line [] [] [] c
      | some "\x7b" =>
        let (body, c) ← list fuel false false .nothing (← read fuel c.rest)
        whole body (← expect fuel "\x7d" c)
      | some "if" =>
        let (body, c) ← branch fuel (← read fuel c.rest)
        whole body c
      | some "while" | some "until" =>
        let inverted := c.token.reserved? == some "until"
        let (condition, c) ← list fuel false false .nothing (← read fuel c.rest)
        let (body, c) ← list fuel false false .nothing (← expect fuel "do" c)
        whole (.loop inverted condition body) (← expect fuel "done" c)
      | some "for" =>
        let name ← read fuel c.rest
        match name.token with
        | .word [.text text false] =>
          if !isName text then name.rest.complain "Syntax error: Bad for loop variable"
          let (words, c) ← eachWords fuel (← skipNewlines fuel (← read fuel name.rest))
          let (body, c) ← list fuel false false .nothing (← expect fuel "do" c)
          whole (.each line text words body) (← expect fuel "done" c)
        | _ => name.rest.complain "Syntax error: Bad for loop variable"
      | some "case" =>
        let word ← read fuel c.rest
        match word.token with
        | .word text =>
          let c ← skipNewlines fuel (← read fuel word.rest)
          let (choices, c) ← cases fuel [] (← expect fuel "in" c)
          whole (.choice line text choices) c
        | _ => word.unexpected false (some "word")
      | some _ => c.unexpected true none
    | _ => c.unexpected true none

/-- What stands between the variable of a `for` and its body. -/
def eachWords (fuel : Nat) (c : Cursor) : Except Complaint (Option (List Word) × Cursor) :=
  match fuel with
  | 0 => c.rest.complain tooDeep
  | fuel + 1 => do
    match c.token with
    | .word [.text "in" false] =>
      let (words, c) ← wordList fuel [] (← read fuel c.rest)
      return (some words, ← skipNewlines fuel c)
    | .operator ";" => return (none, ← skipNewlines fuel (← read fuel c.rest))
    | _ => return (none, c)

/-- The words of a `for` and the end of their line. -/
def wordList (fuel : Nat) (done : List Word) (c : Cursor) :
    Except Complaint (List Word × Cursor) :=
  match fuel with
  | 0 => c.rest.complain tooDeep
  | fuel + 1 => do
    match c.token with
    | .word word => wordList fuel (done ++ [word]) (← read fuel c.rest)
    | .newline | .operator ";" => return (done, ← read fuel c.rest)
    | _ => c.unexpected false none

/-- The cases of a `case` and its end. -/
def cases (fuel : Nat) (done : List (List Word × Command)) (c : Cursor) :
    Except Complaint (List (List Word × Command) × Cursor) :=
  match fuel with
  | 0 => c.rest.complain tooDeep
  | fuel + 1 => do
    let c ← skipNewlines fuel c
    if c.token.reserved? = some "esac" then return (done, ← read fuel c.rest)
    let c ← match c.token with
      | .operator "(" => read fuel c.rest
      | _ => pure c
    let (patterns, c) ← alternatives fuel [] c
    match c.token with
    | .operator ")" =>
      let (body, c) ← list fuel false true .nothing (← read fuel c.rest)
      let done := done ++ [(patterns, body)]
      match c.token with
      | .operator ";;" => cases fuel done (← read fuel c.rest)
      | token =>
        if token.reserved? = some "esac" then return (done, ← read fuel c.rest)
        else c.unexpected true (some (Token.quote ";;"))
    | _ => c.unexpected false (some (Token.quote ")"))

/-- The patterns of a case. -/
def alternatives (fuel : Nat) (done : List Word) (c : Cursor) :
    Except Complaint (List Word × Cursor) :=
  match fuel with
  | 0 => c.rest.complain tooDeep
  | fuel + 1 => do
    match c.token with
    | .word word =>
      let after ← read fuel c.rest
      match after.token with
      | .operator "|" => alternatives fuel (done ++ [word]) (← read fuel after.rest)
      | _ => return (done ++ [word], after)
    | _ => c.unexpected false (some (Token.quote ")"))

/-- What stands after an `if` or `elif`. -/
def branch (fuel : Nat) (c : Cursor) : Except Complaint (Command × Cursor) :=
  match fuel with
  | 0 => c.rest.complain tooDeep
  | fuel + 1 => do
    let (condition, c) ← list fuel false false .nothing c
    let (body, c) ← list fuel false false .nothing (← expect fuel "then" c)
    match c.token.reserved? with
    | some "elif" =>
      let (otherwise, c) ← branch fuel (← read fuel c.rest)
      return (.branch condition body otherwise, c)
    | some "else" =>
      let (otherwise, c) ← list fuel false false .nothing (← read fuel c.rest)
      return (.branch condition body otherwise, ← expect fuel "fi" c)
    | _ => return (.branch condition body .nothing, ← expect fuel "fi" c)

/-- A pipeline. -/
def pipeline (fuel : Nat) (c : Cursor) : Except Complaint (Command × Cursor) :=
  match fuel with
  | 0 => c.rest.complain tooDeep
  | fuel + 1 => do
    let negated := c.token.reserved? == some "!"
    let c ← if negated then read fuel c.rest else pure c
    let (first, c) ← command fuel c
    let (rest, c) ← pipelineRest fuel c
    let whole := if rest.isEmpty then first else .pipeline (first :: rest)
    return (if negated then .negated whole else whole, c)

/-- The further commands of a pipeline. -/
def pipelineRest (fuel : Nat) (c : Cursor) : Except Complaint (List Command × Cursor) :=
  match fuel with
  | 0 => c.rest.complain tooDeep
  | fuel + 1 => do
    match c.token with
    | .operator "|" =>
      let (next, c) ← command fuel (← skipNewlines fuel (← read fuel c.rest))
      let (rest, c) ← pipelineRest fuel c
      return (next :: rest, c)
    | _ => return ([], c)

/-- Pipelines that depend on each other, after the first of them. -/
def chain (fuel : Nat) (first : Command) (c : Cursor) : Except Complaint (Command × Cursor) :=
  match fuel with
  | 0 => c.rest.complain tooDeep
  | fuel + 1 => do
    match c.token with
    | .operator "&&" =>
      let (second, c) ← pipeline fuel (← skipNewlines fuel (← read fuel c.rest))
      chain fuel (.both first second) c
    | .operator "||" =>
      let (second, c) ← pipeline fuel (← skipNewlines fuel (← read fuel c.rest))
      chain fuel (.either first second) c
    | _ => return (first, c)

/-- The commands up to something that ends a list, after those `before`.  With `oneLine` a newline
ends it too.  Unless it `ends`, there must be one more command. -/
def list (fuel : Nat) (oneLine ends : Bool) (before : Command) (c : Cursor) :
    Except Complaint (Command × Cursor) :=
  match fuel with
  | 0 => c.rest.complain tooDeep
  | fuel + 1 => do
    let c ← if oneLine then pure c else skipNewlines fuel c
    match c.token with
    | .newline | .finish => return (before, c)
    | token =>
      if ends && !oneLine && token.endsList then return (before, c)
      let (first, c) ← pipeline fuel c
      let (next, c) ← chain fuel first c
      match c.token with
      | .operator "&" =>
        list fuel oneLine true (joinCommands before (.background next)) (← read fuel c.rest)
      | .operator ";" => list fuel oneLine true (joinCommands before next) (← read fuel c.rest)
      | .newline => list fuel oneLine true (joinCommands before next) c
      | .finish => return (joinCommands before next, c)
      | _ => if oneLine then c.unexpected true none else return (joinCommands before next, c)

end

/-- The commands of a line. -/
structure Line where
  /-- There is none at the end of the script. -/
  command : Option Command
  rest : Source
  /-- Whether the line has an end, so that nothing behind it can belong to it. -/
  complete : Bool

/-- Reads the commands of the next line. -/
def readLine (s : Source) : Except Complaint Line := do
  let fuel := 20 * s.text.length + 100
  let (c, last) ← list fuel true false .nothing (← read fuel s)
  let rest := { last.rest with openEnd := false }
  match c, last.token with
  | .nothing, .finish => return { command := none, rest, complete := false }
  | c, .finish => return { command := some c, rest, complete := false }
  | c, _ => return { command := some c, rest, complete := !last.rest.openEnd }

end Chaperone.Machine.Shell
