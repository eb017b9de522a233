import Chaperone.Machine.Printf
import Chaperone.Machine.Tool.Basic

/-!
# Tools for text

They read files, or standard input, and write what they make of them to standard output.
-/

namespace Chaperone.Machine

namespace Tool

open Routine

/-- Copies one open file to standard output. -/
def copy (fd : Nat) : Nat → Routine (Except Errno Unit)
  | 0 => return .ok ()
  | fuel + 1 => do
    match ← ask (.read fd 131072) with
    | .error errno => return .error errno
    | .ok [] => return .ok ()
    | .ok bytes =>
      match ← write 1 bytes with
      | .error errno => fail ("cat: write error: " ++ reason errno) 1
      | .ok _ => copy fd fuel

def cat : Tool := fun args _ => do
  exit (← eachFile "cat" (operands args) fun fd => copy fd rounds)

/-! ## The beginning and the end of a file -/

/-- A count with its unit. -/
def count? (text : String) : Option Nat :=
  let ds := text.toList.takeWhile Char.isDigit
  let n := ds.foldl (fun n c => n * 10 + (c.toNat - 48)) 0
  if ds.isEmpty then none
  else
    match String.ofList (text.toList.drop ds.length) with
    | "" => some n
    | "b" => some (n * 512)
    | "k" | "K" | "KiB" => some (n * 1024)
    | "kB" => some (n * 1000)
    | "M" | "MiB" => some (n * 1048576)
    | "MB" => some (n * 1000000)
    | _ => none

/-- Copies so many bytes. -/
def headBytes (fd : Nat) : Nat → Nat → List UInt8 → Routine (List UInt8)
  | 0, _, held => return held
  | fuel + 1, left, held => do
    if left = 0 then return held
    match ← ask (.read fd (min left 8192)) with
    | .ok (b :: bytes) => headBytes fd fuel (left - (bytes.length + 1)) (← buffer held (b :: bytes))
    | _ => return held

/-- The beginning of some bytes that ends with so many newlines, and how many newlines are still
missing. -/
def cutLines (left : Nat) (bytes : List UInt8) : List UInt8 × Nat :=
  let (taken, left) := bytes.foldl (fun (taken, left) b =>
    if left = 0 then (taken, 0)
    else (b :: taken, if b = 10 then left - 1 else left)) (([] : List UInt8), left)
  (taken.reverse, left)

/-- Copies so many lines. -/
def headLines (fd : Nat) : Nat → Nat → List UInt8 → Routine (List UInt8)
  | 0, _, held => return held
  | fuel + 1, left, held => do
    if left = 0 then return held
    match ← ask (.read fd 8192) with
    | .ok (b :: bytes) =>
      let (taken, left) := cutLines left (b :: bytes)
      headLines fd fuel left (← buffer held taken)
    | _ => return held

/-- What `head` and `tail` are asked for. -/
structure Extent where
  count : Nat := 10
  /-- The sign before the count, which counts from the other end. -/
  sign : Option Char := none
  inBytes : Bool := false
  /-- Whether to wait for more at the end. -/
  follow : Bool := false
  names : List String := []

/-- Takes an amount. -/
def Extent.amount (e : Extent) (tool : String) (inBytes : Bool) (text : String) : Routine Extent :=
  let (sign, digits) := match text.toList with
    | '+' :: rest => (some '+', String.ofList rest)
    | '-' :: rest => (some '-', String.ofList rest)
    | _ => (none, text)
  match count? digits with
  | some count => return { e with count, sign, inBytes }
  | none =>
    fail (tool ++ ": invalid number of " ++ (if inBytes then "bytes" else "lines") ++ ": '" ++
      text ++ "'") 1

/-- What the arguments of `head` and `tail` ask for.  The argument of an option may be `awaited`. -/
def extent (tool : String) (awaited : Option Bool) : List String → Extent → Routine Extent
  | [], e =>
    match awaited with
    | none => return e
    | some inBytes =>
      misuse tool ("option requires an argument -- '" ++ (if inBytes then "c" else "n") ++ "'")
  | a :: rest, e => do
    let text := String.ofList (a.toList.drop 2)
    match awaited with
    | some inBytes => extent tool none rest (← e.amount tool inBytes a)
    | none =>
      if a = "-c" then extent tool (some true) rest e
      else if a = "-n" then extent tool (some false) rest e
      else if a = "-q" then extent tool none rest e
      else if a = "-f" then extent tool none rest { e with follow := true }
      else if a.startsWith "-c" then extent tool none rest (← e.amount tool true text)
      else if a.startsWith "-n" then extent tool none rest (← e.amount tool false text)
      else if a.startsWith "-" && a.length > 1 then
        extent tool none rest (← e.amount tool false (String.ofList (a.toList.drop 1)))
      else extent tool none rest { e with names := e.names ++ [a] }

/-- The pieces of some bytes that end with a newline, and what is left. -/
def splitLines (bytes : List UInt8) : List (List UInt8) :=
  let (line, lines) := bytes.foldl (fun (line, lines) b =>
    if b = 10 then ([], (b :: line).reverse :: lines) else (b :: line, lines))
    (([] : List UInt8), ([] : List (List UInt8)))
  (if line.isEmpty then lines else line.reverse :: lines).reverse

/-- The items from the end, or with a plus sign those from a place on. -/
def Extent.last {α : Type} (e : Extent) (items : List α) : List α :=
  items.drop (if e.sign = some '+' then e.count - 1 else items.length - e.count)

/-- Reads a whole file and writes a part of it. -/
def part (fd : Nat) (use : List UInt8 → List UInt8) : Routine (Except Errno Unit) := do
  match ← readAll fd with
  | .error errno => return .error errno
  | .ok bytes =>
    flush (use bytes)
    return .ok ()

def head : Tool := fun args _ => do
  let e ← extent "head" none (args.drop 1) {}
  exit (← eachFile "head" e.names fun fd => do
    if e.sign = some '-' then
      part fd fun bytes =>
        if e.inBytes then bytes.take (bytes.length - e.count)
        else ((splitLines bytes).take ((splitLines bytes).length - e.count)).flatten
    else
      flush (← if e.inBytes then headBytes fd rounds e.count [] else headLines fd rounds e.count [])
      return .ok ())

/-- Does nothing for ever. -/
def idle : Nat → Routine Unit
  | 0 => return
  | fuel + 1 => do
    let _ ← ask (.sleep 1000000)
    idle fuel

def tail : Tool := fun args _ => do
  let e ← extent "tail" none (args.drop 1) {}
  let code ← eachFile "tail" e.names fun fd =>
    part fd fun bytes => if e.inBytes then e.last bytes else (e.last (splitLines bytes)).flatten
  if e.follow then idle rounds
  exit code

/-! ## Translating -/

/-- The bytes of a class. -/
def classBytes (name : String) : List Nat :=
  let upto (a b : Nat) : List Nat := (List.range (b + 1 - a)).map (· + a)
  match name with
  | "upper" => upto 65 90
  | "lower" => upto 97 122
  | "digit" => upto 48 57
  | "alpha" => upto 65 90 ++ upto 97 122
  | "alnum" => upto 48 57 ++ upto 65 90 ++ upto 97 122
  | "space" => upto 9 13 ++ [32]
  | "blank" => [9, 32]
  | "punct" => upto 33 47 ++ upto 58 64 ++ upto 91 96 ++ upto 123 126
  | "cntrl" => upto 0 31 ++ [127]
  | "print" => upto 32 126
  | "graph" => upto 33 126
  | "xdigit" => upto 48 57 ++ upto 65 70 ++ upto 97 102
  | _ => []

/-- One byte of a set. -/
def setByte : List Char → Option (Nat × List Char)
  | [] => none
  | '\\' :: rest =>
    let (s, rest') := Printf.escape rest
    match s.toList with
    | [c] => some (c.toNat, rest')
    | _ =>
      match rest with
      | c :: rest => some (c.toNat, rest)
      | [] => some (92, [])
  | c :: rest => some (c.toNat, rest)

/-- The bytes of a set: single ones, ranges and classes. -/
def setBytes : Nat → List Char → List Nat
  | 0, _ => []
  | fuel + 1, text =>
    match text with
    | '[' :: ':' :: rest =>
      let name := rest.takeWhile (· != ':')
      match rest.drop name.length with
      | ':' :: ']' :: rest => classBytes (String.ofList name) ++ setBytes fuel rest
      | _ => 91 :: setBytes fuel (':' :: rest)
    | text =>
      match setByte text with
      | none => []
      | some (a, '-' :: rest) =>
        match setByte rest with
        | some (b, rest) => (List.range (b + 1 - a)).map (· + a) ++ setBytes fuel rest
        | none => [a, 45]
      | some (a, rest) => a :: setBytes fuel rest

/-- What becomes of each byte: another byte, or nothing. -/
def translation (delete : Bool) (from_ into : List Nat) : Array (Option UInt8) :=
  let identity := (Array.range 256).map fun n => some (UInt8.ofNat n)
  let last := into.getLast?.getD 0
  if delete then from_.foldl (fun table n => table.set! n none) identity
  else
    (from_.zipIdx).foldl
      (fun table (n, i) => table.set! n (some (UInt8.ofNat (into[i]?.getD last)))) identity

/-- Leaves out a byte of the set that follows the same byte. -/
def squeeze (set : List Nat) (last : Option UInt8) (bytes : List UInt8) :
    List UInt8 × Option UInt8 :=
  let (kept, last) := bytes.foldl (fun (kept, last) b =>
    if last = some b && set.contains b.toNat then (kept, last) else (b :: kept, some b))
    (([] : List UInt8), last)
  (kept.reverse, last)

/-- Translates standard input. -/
def translate (table : Array (Option UInt8)) (squeezed : Option (List Nat)) :
    Nat → Option UInt8 → List UInt8 → Routine (List UInt8)
  | 0, _, held => return held
  | fuel + 1, last, held => do
    match ← ask (.read 0 8192) with
    | .ok (b :: bytes) =>
      let mapped := (b :: bytes).filterMap fun b => table[b.toNat]?.join
      let (mapped, last) := match squeezed with
        | some set => squeeze set last mapped
        | none => (mapped, last)
      translate table squeezed fuel last (← buffer held mapped)
    | .ok [] => return held
    | .error errno => fail ("tr: read error: " ++ reason errno) 1

def tr : Tool := fun args _ => do
  let letters := (args.drop 1).takeWhile fun a => a.startsWith "-" && a.length > 1
  let delete := letters.any (·.contains 'd')
  let squeezes := letters.any (·.contains 's')
  let complement := letters.any fun a => a.contains 'c' || a.contains 'C'
  let sets := (args.drop 1).drop letters.length
  let set (text : String) : List Nat := setBytes (text.length + 1) text.toList
  match sets with
  | [] => misuse "tr" "missing operand"
  | first :: more =>
    let from_ := set first
    let from_ := if complement then (List.range 256).filter fun n => !from_.contains n else from_
    let into := more.map set
    if !delete && !squeezes && more.isEmpty then
      misuse "tr" ("missing operand after '" ++ first ++
        "'\nTwo strings must be given when translating.")
    else
      let table := match delete, into with
        | true, _ => translation true from_ []
        | false, into :: _ => translation false from_ into
        | false, [] => translation false [] []
      let squeezed :=
        if squeezes then some (into.getLast?.getD from_) else none
      flush (← translate table squeezed rounds none [])

/-! ## Counting and sorting -/

/-- Lines, words and bytes. -/
def counts (bytes : List UInt8) : Nat × Nat × Nat :=
  let isSpace (b : UInt8) : Bool := b = 32 || (9 ≤ b && b ≤ 13)
  let (lines, words, size, _) := bytes.foldl (fun (lines, words, size, inWord) b =>
    (if b = 10 then lines + 1 else lines, if !inWord && !isSpace b then words + 1 else words,
      size + 1, !isSpace b)) (0, 0, 0, false)
  (lines, words, size)

/-- A number in a field. -/
def inField (width n : Nat) : String :=
  let s := toString n
  String.ofList (List.replicate (width - s.length) ' ') ++ s

def wc : Tool := fun args _ => do
  let names := operands args
  let lines := hasOption args 'l'
  let words := hasOption args 'w'
  let size := hasOption args 'c' || hasOption args 'm'
  let all := !lines && !words && !size
  let single := [lines, words, size].countP (·) = 1 && names.length ≤ 1
  let rec go (code : Nat) : List String → Routine Nat
    | [] => return code
    | name :: rest => do
      let opened ← if name = "-" then pure (.ok 0) else ask (.openFile name .read)
      match opened with
      | .error errno =>
        say 2 ("wc: " ++ name ++ ": " ++ reason errno ++ "\n")
        go 1 rest
      | .ok fd =>
        match ← readAll fd with
        | .error errno =>
          say 2 ("wc: " ++ name ++ ": " ++ reason errno ++ "\n")
          go 1 rest
        | .ok bytes =>
          let (l, w, c) := counts bytes
          let width :=
            if single then 1 else if names.isEmpty then 7 else (toString c).length
          let parts := (if lines || all then [inField width l] else []) ++
            (if words || all then [inField width w] else []) ++
            (if size || all then [inField width c] else [])
          say 1 (" ".intercalate parts ++ (if names.isEmpty then "" else " " ++ name) ++ "\n")
          go code rest
  exit (← go 0 (if names.isEmpty then ["-"] else names))

/-- Whether one line comes before or together with another one, by bytes. -/
def bytesLe : List UInt8 → List UInt8 → Bool
  | [], _ => true
  | _ :: _, [] => false
  | a :: x, b :: y => a < b || (a = b && bytesLe x y)

/-- The number at the start of a line. -/
def leadingNumber (line : List UInt8) : Int :=
  let text := (line.map fun b => Char.ofNat b.toNat).dropWhile (· == ' ')
  let (negative, text) := match text with
    | '-' :: rest => (true, rest)
    | rest => (false, rest)
  let n : Int := (text.takeWhile Char.isDigit).foldl (fun n c => n * 10 + (c.toNat - 48)) 0
  if negative then -n else n

/-- Lines without their newlines. -/
def bareLines (bytes : List UInt8) : List (List UInt8) :=
  (splitLines bytes).map fun line => if line.getLast? = some 10 then line.dropLast else line

/-- Leaves out a line that equals the one before it. -/
def distinct : List (List UInt8) → List (List UInt8)
  | a :: b :: rest => if a = b then distinct (b :: rest) else a :: distinct (b :: rest)
  | lines => lines

/-- Reads all the files that are named, one after the other. -/
def readFiles (tool : String) (names : List String) (code : Nat) : Routine (List UInt8) :=
  let rec go (done : List (List UInt8)) : List String → Routine (List UInt8)
    | [] => return done.reverse.flatten
    | name :: rest => do
      let opened ← if name = "-" then pure (.ok 0) else ask (.openFile name .read)
      match opened with
      | .error errno => fail (tool ++ ": cannot read: " ++ name ++ ": " ++ reason errno) code
      | .ok fd =>
        match ← readAll fd with
        | .error errno => fail (tool ++ ": read failed: " ++ name ++ ": " ++ reason errno) code
        | .ok bytes => go (bytes :: done) rest
  go [] (if names.isEmpty then ["-"] else names)

def sort : Tool := fun args _ => do
  let lines := bareLines (← readFiles "sort" (operands args) 2)
  let le (a b : List UInt8) : Bool :=
    if hasOption args 'n' then
      let x := leadingNumber a
      let y := leadingNumber b
      x < y || (x = y && bytesLe a b)
    else bytesLe a b
  let sorted := lines.mergeSort fun a b => if hasOption args 'r' then le b a else le a b
  let sorted := if hasOption args 'u' then distinct sorted else sorted
  flush (sorted.map (· ++ [10])).flatten

/-- Runs of equal lines, each with its length. -/
def runsOf (lines : List (List UInt8)) : List (List UInt8 × Nat) :=
  (lines.foldl (fun runs line =>
    match runs with
    | (before, n) :: rest => if before = line then (before, n + 1) :: rest else (line, 1) :: runs
    | [] => [(line, 1)]) []).reverse

def uniq : Tool := fun args _ => do
  let lines := bareLines (← readFiles "uniq" (operands args) 1)
  let runs := (runsOf lines).filter fun run =>
    (!hasOption args 'd' || 1 < run.2) && (!hasOption args 'u' || run.2 = 1)
  flush (runs.map fun (line, n) =>
    (if hasOption args 'c' then toBytes (inField 7 n ++ " ") else []) ++ line ++ [10]).flatten

def rev : Tool := fun args _ => do
  let bytes ← readFiles "rev" (operands args) 1
  flush ((splitLines bytes).map fun line =>
    if line.getLast? = some 10 then line.dropLast.reverse ++ [10] else line.reverse).flatten

def tac : Tool := fun args _ => do
  let bytes ← readFiles "tac" (operands args) 1
  flush (splitLines bytes).reverse.flatten

/-! ## Parts of lines -/

/-- A range of places, counted from one; without an end it goes on. -/
abbrev Range := Nat × Option Nat

/-- The ranges that a list asks for. -/
def ranges? (text : String) : Option (List Range) :=
  (text.splitOn ",").mapM fun part =>
    match part.splitOn "-" with
    | [one] => (digits? one).map fun n => (n, some n)
    | [first, last] =>
      if first.isEmpty && last.isEmpty then none
      else do
        let low ← if first.isEmpty then some 1 else digits? first
        let high ← if last.isEmpty then some none else (digits? last).map some
        return (low, high)
    | _ => none
where
  /-- A number that is not zero. -/
  digits? (text : String) : Option Nat :=
    if !text.isEmpty && text.all Char.isDigit then
      (some (text.toList.foldl (fun n c => n * 10 + (c.toNat - 48)) 0)).filter (· ≠ 0)
    else none

/-- The items whose places are in the ranges. -/
def selected {α : Type} (ranges : List Range) (items : List α) : List α :=
  (items.zipIdx.filter fun (_, i) =>
    ranges.any fun (low, high) => low ≤ i + 1 && high.all (i + 1 ≤ ·)).map (·.1)

/-- What `cut` is asked for. -/
structure Cutting where
  /-- The ranges, with whether they count fields. -/
  list : Option (String × Bool) := none
  delimiter : Char := '\t'
  /-- Whether lines without the delimiter are left out. -/
  strict : Bool := false
  names : List String := []

/-- Takes the arguments of `cut`; one may be the value of the option before it. -/
def cuttingOf (c : Cutting) (awaited : Option Char) : List String → Cutting
  | [] => c
  | a :: rest =>
    let accept (letter : Char) (value : String) : Cutting :=
      if letter == 'd' then { c with delimiter := value.toList.headD '\x00' }
      else { c with list := some (value, letter == 'f') }
    match awaited, a.toList with
    | some letter, _ => cuttingOf (accept letter a) none rest
    | none, ['-', 's'] => cuttingOf { c with strict := true } none rest
    | none, '-' :: letter :: value =>
      if "bcdf".toList.contains letter then
        if value.isEmpty then cuttingOf c (some letter) rest
        else cuttingOf (accept letter (String.ofList value)) none rest
      else cuttingOf c none rest
    | none, _ => cuttingOf { c with names := c.names ++ [a] } none rest

def cut : Tool := fun args _ => do
  let c := cuttingOf {} none (args.drop 1)
  match c.list with
  | none => misuse "cut" "you must specify a list of bytes, characters, or fields"
  | some (text, fields) =>
    match ranges? text with
    | none => misuse "cut" ("invalid " ++ (if fields then "field" else "byte/character") ++
        " range")
    | some ranges =>
      let lines := bareLines (← readFiles "cut" c.names 1)
      flush (lines.filterMap fun line =>
        if !fields then some (selected ranges line ++ [10])
        else
          let text := ofBytes line
          if text.contains c.delimiter then
            let delimiter := String.singleton c.delimiter
            some (toBytes
              (delimiter.intercalate (selected ranges (text.splitOn delimiter)) ++ "\n"))
          else if c.strict then none
          else some (line ++ [10])).flatten

end Tool

end Chaperone.Machine
