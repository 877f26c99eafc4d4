/-!
# Identifiers in answers

Entries, leases, locks, work items and hybrid caches are named by UUIDs. Answers show them
by first appearance: every lower-case UUID in the text of an answer (eight, four, four, four
and twelve hexadecimal digits joined by hyphens) becomes `<uuid:N>`, where `N` counts the
distinct UUIDs from 1 in the order they first appear, reading left to right and taking each
match whole before looking further.

So the UUIDs themselves never show; only which are equal does. The library draws them from a
counter.
-/

namespace Backplane.Uuid

def isHex (c : Char) : Bool := c.isDigit || ('a' ≤ c && c ≤ 'f')

/-- The lengths of the hyphen-separated groups of a UUID. -/
def groups : List Nat := [8, 4, 4, 4, 12]

/-- Whether a text starts with `n` hexadecimal digits; the rest after them. -/
def hexRun : Nat → List Char → Option (List Char)
  | 0, cs => some cs
  | n + 1, c :: cs => if isHex c then hexRun n cs else none
  | _ + 1, [] => none

/-- Whether a text starts with a UUID; the UUID and the rest after it. -/
def startsUuid (cs : List Char) : Option (List Char × List Char) :=
  let rec walk : List Nat → List Char → Option (List Char)
    | [], rest => some rest
    | [n], rest => hexRun n rest
    | n :: more, rest =>
      match hexRun n rest with
      | some ('-' :: after) => walk more after
      | _ => none
  match walk groups cs with
  | some rest => some (cs.take 36, rest)
  | none => none

/-- Replace the UUIDs of a text, numbering them by first appearance; `seen` holds those
already numbered, the first at its head. -/
def renumberAux : Nat → List Char → List String → List Char × List String
  | 0, cs, seen => (cs, seen)
  | _ + 1, [], seen => ([], seen)
  | fuel + 1, c :: cs, seen =>
    match startsUuid (c :: cs) with
    | some (u, rest) =>
      let s := String.ofList u
      let (n, seen) := match seen.idxOf? s with
        | some i => (i + 1, seen)
        | none => (seen.length + 1, seen ++ [s])
      let (out, seen) := renumberAux fuel rest seen
      ("<uuid:".toList ++ (toString n).toList ++ ['>'] ++ out, seen)
    | none =>
      let (out, seen) := renumberAux fuel cs seen
      (c :: out, seen)

/-- A text with its UUIDs numbered by first appearance. -/
def renumber (s : String) : String :=
  String.ofList (renumberAux (s.length + 1) s.toList []).1

/-- The twelve-digit hexadecimal text of a number. -/
def hex12 (n : Nat) : String :=
  let ds := (Nat.toDigits 16 n).map Char.toLower
  String.ofList (List.replicate (12 - ds.length) '0' ++ ds)

/-- The `n`-th UUID the library hands out: a version-4 layout with `n` in its last group. -/
def ofCounter (n : Nat) : String := "00000000-0000-4000-8000-" ++ hex12 n

end Backplane.Uuid
