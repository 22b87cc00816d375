import SystemStats.PosixRegex

/-!
# The syntax of extended regular expressions

`parse` reads a pattern from left to right with one frame for each open
parenthesis. A frame keeps the branches that a `|` has closed and the items of
the current branch, the last one first. Brackets, braces and escapes are
outside this fragment and give `none`, as does a misplaced operator.
-/

namespace PosixRegex
open TextLines (Text)

structure Frame where
  branches : List Regex
  items : List Regex
  deriving DecidableEq

namespace Frame

def start : Frame := ⟨[], []⟩

def branch (f : Frame) : Regex := f.items.foldl (fun s r => .seq r s) .eps

def push (f : Frame) (r : Regex) : Frame := { f with items := r :: f.items }

def close (f : Frame) : Regex := (f.branch :: f.branches).foldl (fun s r => .alt r s) .empty

def postfixed (op : Regex → Regex) (f : Frame) : Option Frame :=
  match f.items with
  | [] => none
  | r :: rs => some { f with items := op r :: rs }

end Frame

def special : Text := "[]\x7b\x7d\\".toList

abbrev Stack := Frame × List Frame

def Stack.read (s : Stack) (c : Char) : Option Stack :=
  match c, s with
  | '(', (f, fs) => some (.start, f :: fs)
  | ')', (f, g :: fs) => some (g.push f.close, fs)
  | ')', (_, []) => none
  | '|', (f, fs) => some (⟨f.branch :: f.branches, []⟩, fs)
  | '*', (f, fs) => (f.postfixed .star).map (·, fs)
  | '+', (f, fs) => (f.postfixed .plus).map (·, fs)
  | '?', (f, fs) => (f.postfixed .opt).map (·, fs)
  | '^', (f, fs) => some (f.push .bol, fs)
  | '$', (f, fs) => some (f.push .eol, fs)
  | '.', (f, fs) => some (f.push .any, fs)
  | c, (f, fs) => if c ∈ special then none else some (f.push (.char c), fs)

def readAll : Stack → Text → Option Stack
  | s, [] => some s
  | s, c :: t => (s.read c).bind (readAll · t)

def parse (pattern : Text) : Option Regex :=
  match readAll (.start, []) pattern with
  | some (f, []) => some f.close
  | _ => none

example : parse "^a(b|c+)$".toList = some (alternatives [.seq .bol (.seq (.char 'a')
    (.seq (alternatives [chars ['b'] .eps, .seq (.plus (.char 'c')) .eps])
      (.seq .eol .eps)))]) := by
  decide

end PosixRegex
