/-!
# Patterns

A pattern describes what a part of a text looks like.  It is built from classes of characters.

* `one` is one character of a class.
* `most` and `fewest` are any number of characters of a class, as many or as few as possible.
* `next` is one pattern behind another.
* `kept` is a pattern whose text is wanted afterwards.

There may be several ways to match a pattern at a place.  `Pattern.ways` lists them in the order in
which they are preferred.  `most` prefers the longest run and `fewest` the shortest.  What comes
first decides first: a way for the front of a pattern is given up only if nothing behind it fits.

`Pattern.search` tries the places of a text from left to right, and at each place the ways in their
order.  The first one that is found counts.
-/

namespace ContentServer.Text

/-- What a part of a text looks like. -/
inductive Pattern where
  /-- No character at all. -/
  | nothing
  /-- One character of a class. -/
  | one (accepts : Char → Bool)
  /-- Characters of a class, as many as possible. -/
  | most (accepts : Char → Bool)
  /-- Characters of a class, as few as possible. -/
  | fewest (accepts : Char → Bool)
  /-- One pattern and then another one. -/
  | next (first second : Pattern)
  /-- A pattern whose text is kept. -/
  | kept (inner : Pattern)

/-- A way to match a pattern at some place of a text. -/
structure Way where
  /-- The text behind the match. -/
  rest : List Char
  /-- The text from the start and from the end of the last part that is kept. -/
  part : Option (List Char × List Char) := none
deriving DecidableEq, Repr

/-- The text of the part that is kept. -/
def Way.text? (w : Way) : Option (List Char) :=
  w.part.map fun (start, stop) => start.take (start.length - stop.length)

namespace Pattern

/-- What is left behind each run of characters of a class, the longest run first.  `found` is what
is left behind shorter runs. -/
def rests (accepts : Char → Bool) (found : List (List Char)) : List Char → List (List Char)
  | [] => [] :: found
  | c :: cs =>
    if accepts c then rests accepts ((c :: cs) :: found) cs else (c :: cs) :: found

/-- The ways to match a pattern behind another match, the preferred one first. -/
def ways : Pattern → Way → List Way
  | .nothing, w => [w]
  | .one accepts, w =>
    match w.rest with
    | [] => []
    | c :: cs => if accepts c then [{ w with rest := cs }] else []
  | .most accepts, w => (rests accepts [] w.rest).map fun rest => { w with rest }
  | .fewest accepts, w => (rests accepts [] w.rest).reverse.map fun rest => { w with rest }
  | .next first second, w => (first.ways w).flatMap second.ways
  | .kept inner, w => (inner.ways w).map fun v => { v with part := some (w.rest, v.rest) }

/-- The preferred way to match a pattern at the first place where there is one. -/
def search (p : Pattern) : List Char → Option Way
  | [] => (p.ways { rest := [] }).head?
  | c :: cs =>
    match (p.ways { rest := c :: cs }).head? with
    | some w => some w
    | none => search p cs

/-- Some patterns, one behind the other. -/
def row (ps : List Pattern) : Pattern := ps.foldr .next .nothing

/-- A word, given in lower case, in letters of either case. -/
def word (w : String) : Pattern := row (w.toList.map fun c => .one fun d => d.toLower == c)

example : (search (row [kept (most (· == 'a')), word "a"]) "baAa".toList).map Way.text?
    = some (some ['a']) := by decide
example : (search (row [kept (fewest (· == 'a')), word "a"]) "baAa".toList).map Way.text?
    = some (some []) := by decide
example : search (row [most (· == 'a'), word "b"]) "acaa".toList = none := by decide

end Pattern

end ContentServer.Text
