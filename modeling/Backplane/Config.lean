import Backplane.Time.Duration
import Backplane.Text.Lower

/-!
# Configuration

A configuration maps string keys to string values; setting a key again replaces its value.
Typed reads parse the value by the usual rules for decimal numbers in configuration files:
an optional `+`, then one or more ASCII digits and nothing else, the value within the bounds
of the type (a leading zero is allowed, a blank or a `-` is not). A boolean is exactly `true`
or `false`. A duration is a count of milliseconds.

Settings can also be loaded from environment variables: every variable whose name starts
with a prefix contributes the rest of its name, in lower case and with each `__` (taken left
to right, without overlap) turned into `.`, as a key.
-/

namespace Backplane

/-- Settings by key, in the order keys were first set. -/
structure Config where
  entries : List (String × String)
  deriving Repr, Inhabited

namespace Config

def empty : Config := ⟨[]⟩

/-- Replace the value of a key in a list of entries, or add the entry at the end. -/
def setEntry (k v : String) : List (String × String) → List (String × String)
  | [] => [(k, v)]
  | (k', v') :: rest => if k == k' then (k, v) :: rest else (k', v') :: setEntry k v rest

def set (c : Config) (k v : String) : Config := ⟨setEntry k v c.entries⟩

/-- The value of a key. -/
def get? (c : Config) (k : String) : Option String :=
  (c.entries.find? (·.1 == k)).map (·.2)

def has (c : Config) (k : String) : Bool := (c.get? k).isSome

/-- A decimal number of at most `bits` bits: an optional `+`, then digits only. -/
def parseUnsigned (bits : Nat) (s : String) : Option Nat :=
  let ds := match s.toList with
    | '+' :: rest => rest
    | cs => cs
  if ds.isEmpty || !ds.all Char.isDigit then none
  else
    let n := ds.foldl (fun acc c => acc * 10 + (c.toNat - 48)) 0
    if n < Nat.pow 2 bits then some n else none

/-- `true` or `false`, exactly. -/
def parseBool (s : String) : Option Bool :=
  if s == "true" then some true else if s == "false" then some false else none

def getU64 (c : Config) (k : String) : Option Nat := (c.get? k).bind (parseUnsigned 64)

def getU32 (c : Config) (k : String) : Option Nat := (c.get? k).bind (parseUnsigned 32)

/-- A size setting, 64 bits wide. -/
def getSize (c : Config) (k : String) : Option Nat := (c.get? k).bind (parseUnsigned 64)

def getBool (c : Config) (k : String) : Option Bool := (c.get? k).bind parseBool

/-- A duration setting in milliseconds. -/
def getMillis (c : Config) (k : String) : Option Duration := (c.getU64 k).map Duration.ofMillis

/-- Replace each `__`, left to right and without overlap, by `.`. -/
def dotted : List Char → List Char
  | '_' :: '_' :: rest => '.' :: dotted rest
  | c :: rest => c :: dotted rest
  | [] => []

/-- The key that an environment variable contributes under a prefix, if its name has it. -/
def envKey (envPrefix name : String) : Option String :=
  if envPrefix.isPrefixOf name then
    let rest := String.ofList (name.toList.drop envPrefix.length)
    some (String.ofList (dotted (Lower.lower rest).toList))
  else none

/-- Load the variables of an environment, in its order, under a prefix: the configuration
after them, and how many variables had the prefix. -/
def loadEnv (c : Config) (envPrefix : String) (vars : List (String × String)) : Config × Nat :=
  vars.foldl (fun (acc : Config × Nat) (name, value) =>
    match envKey envPrefix name with
    | some k => (acc.1.set k value, acc.2 + 1)
    | none => acc) (c, 0)

end Config

end Backplane
