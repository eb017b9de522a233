/-!
# Pipes

A pipe holds up to 16 pages, unless it is given another size.  What is written goes into new pages, except that a rest which fills
no page is added to the newest page if it fits there; space in a page that was read from is not
used again.  So a pipe of 16 pages takes 65536 bytes when they come in large pieces, and may be full
with fewer.
-/

namespace Chaperone.Machine

/-- How many bytes a page has room for. -/
def pageSize : Nat := 4096

/-- How many pages a pipe has at first. -/
def pipePages : Nat := 16

/-- A page with something to read. -/
structure Page where
  /-- How many bytes of the page have been read. -/
  skipped : Nat
  bytes : List UInt8
  deriving DecidableEq, Repr, Inhabited

/-- What waits to be read, oldest page first. -/
structure Pipe where
  pages : List Page := []
  /-- How many pages it has. -/
  capacity : Nat := pipePages
  deriving DecidableEq, Repr, Inhabited

namespace Pipe

/-- Whether nothing waits to be read. -/
def isEmpty (pipe : Pipe) : Bool := pipe.pages.isEmpty

/-- Whether a write cannot begin a page. -/
def isFull (pipe : Pipe) : Bool := pipe.capacity ≤ pipe.pages.length

/-- Gives a pipe the least power of two of pages that holds so many bytes, unless it holds more
pages now. -/
def resize (pipe : Pipe) (size : Nat) : Option Pipe :=
  let capacity := ((size + pageSize - 1) / pageSize).nextPowerOfTwo
  if capacity < pipe.pages.length then none else some { pipe with capacity }

/-- Fills new pages as long as there are any.  Gives the pages and how many bytes they took. -/
def fill (free : Nat) (bytes : List UInt8) : List Page × Nat :=
  match free, bytes with
  | 0, _ | _, [] => ([], 0)
  | free + 1, bytes =>
    let page := bytes.take pageSize
    let (pages, count) := fill free (bytes.drop pageSize)
    (⟨0, page⟩ :: pages, page.length + count)

/-- Adds bytes to the newest page if they fit there. -/
def top (bytes : List UInt8) : List Page → Option (List Page)
  | [] => none
  | [page] =>
    if page.skipped + page.bytes.length + bytes.length ≤ pageSize then
      some [{ page with bytes := page.bytes ++ bytes }]
    else none
  | page :: rest => (top bytes rest).map (page :: ·)

/-- Adds the rest of a write that fills no page to the newest page, if it fits there.  Gives the
pages and how many bytes they took. -/
def topUp (pages : List Page) (bytes : List UInt8) : List Page × Nat :=
  let odd := bytes.length % pageSize
  if odd = 0 then (pages, 0)
  else
    match top (bytes.take odd) pages with
    | some pages => (pages, odd)
    | none => (pages, 0)

/-- Writes as many bytes as there is room for.  Gives their number. -/
def write (pipe : Pipe) (bytes : List UInt8) : Pipe × Nat :=
  let topped := topUp pipe.pages bytes
  let filled := fill (pipe.capacity - topped.1.length) (bytes.drop topped.2)
  ({ pipe with pages := topped.1 ++ filled.1 }, topped.2 + filled.2)

/-- Takes up to `count` bytes from pages. -/
def takeFrom (count : Nat) : List Page → List UInt8 × List Page
  | [] => ([], [])
  | page :: rest =>
    if count = 0 then ([], page :: rest)
    else if page.bytes.length ≤ count then
      let (bytes, left) := takeFrom (count - page.bytes.length) rest
      (page.bytes ++ bytes, left)
    else (page.bytes.take count, ⟨page.skipped + count, page.bytes.drop count⟩ :: rest)

/-- Reads up to `count` bytes. -/
def read (pipe : Pipe) (count : Nat) : Pipe × List UInt8 :=
  let (bytes, pages) := takeFrom count pipe.pages
  ({ pipe with pages }, bytes)

end Pipe

/-- Nothing more than was asked for is taken. -/
theorem Pipe.length_takeFrom_le (count : Nat) (pages : List Page) :
    (Pipe.takeFrom count pages).1.length ≤ count := by
  induction pages generalizing count with
  | nil => simp [Pipe.takeFrom]
  | cons page rest ih =>
    simp only [Pipe.takeFrom]
    split
    · simp
    · split
      · have := ih (count - page.bytes.length)
        simp only [List.length_append]
        omega
      · simp only [List.length_take]
        omega

/-- New pages take no more than there is. -/
theorem Pipe.fill_le (free : Nat) (bytes : List UInt8) :
    (Pipe.fill free bytes).2 ≤ bytes.length := by
  induction free generalizing bytes with
  | zero => simp [Pipe.fill]
  | succ free ih =>
    cases bytes with
    | nil => simp [Pipe.fill]
    | cons b rest =>
      have := ih ((b :: rest).drop pageSize)
      simp only [Pipe.fill]
      simp only [List.length_take, List.length_drop] at this ⊢
      omega

/-- The newest page takes no more than there is. -/
theorem Pipe.topUp_le (pages : List Page) (bytes : List UInt8) :
    (Pipe.topUp pages bytes).2 ≤ bytes.length := by
  simp only [Pipe.topUp]
  have : bytes.length % pageSize ≤ bytes.length := Nat.mod_le _ _
  split
  · simp
  · split <;> simp [this]

/-- A pipe takes no more than it is given. -/
theorem Pipe.write_le (pipe : Pipe) (bytes : List UInt8) : (pipe.write bytes).2 ≤ bytes.length := by
  have := Pipe.topUp_le pipe.pages bytes
  have filled := Pipe.fill_le (pipe.capacity - (Pipe.topUp pipe.pages bytes).1.length)
    (bytes.drop (Pipe.topUp pipe.pages bytes).2)
  simp only [List.length_drop] at filled
  simp only [Pipe.write]
  omega

end Chaperone.Machine
