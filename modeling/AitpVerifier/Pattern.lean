import AitpVerifier.Text

/-!
# Backtracking regular expressions

Greedy, leftmost-first matching with named groups, in continuation form: a
matcher passes what is left of its input on and takes back failure. A star gives
up an iteration that consumed nothing, so its fuel is the length of its input.
-/
open PyText

inductive Pattern where
  | empty : Pattern
  | set : Bool → List (Nat × Nat) → Pattern
  | seq : Pattern → Pattern → Pattern
  | alt : Pattern → Pattern → Pattern
  | star : Pattern → Pattern
  | group : String → Pattern → Pattern
  deriving DecidableEq, Repr

namespace Pattern

/-- Captured groups, the latest first. -/
abbrev Captures := List (String × Text)

abbrev Matcher (α : Type) := Text → Captures → (Text → Captures → Option α) → Option α

/-- Membership in a character class, given by its ranges. -/
def inSet (negated : Bool) (ranges : List (Nat × Nat)) (c : CodePoint) : Bool :=
  xor negated (ranges.any (fun r => r.1 ≤ c.val && c.val ≤ r.2))

def starLoop {α : Type} (body : Matcher α) : Nat → Matcher α
  | 0, s, g, k => k s g
  | fuel + 1, s, g, k =>
    match body s g (fun s' g' => if s'.length < s.length then starLoop body fuel s' g' k else none) with
    | some a => some a
    | none => k s g

def run {α : Type} : Pattern → Matcher α
  | .empty, s, g, k => k s g
  | .set negated ranges, s, g, k =>
    match s with
    | [] => none
    | c :: rest => if inSet negated ranges c then k rest g else none
  | .seq p q, s, g, k => run p s g (fun s' g' => run q s' g' k)
  | .alt p q, s, g, k =>
    match run p s g k with
    | some a => some a
    | none => run q s g k
  | .star p, s, g, k => starLoop (run p) s.length s g k
  | .group name p, s, g, k =>
    run p s g (fun s' g' => k s' ((name, s.take (s.length - s'.length)) :: g'))

/-- `re.fullmatch`: the groups of the first match that reaches the end. -/
def fullMatch? (p : Pattern) (s : Text) : Option Captures :=
  run p s [] (fun rest g => if rest.isEmpty then some g else none)

def fullMatch (p : Pattern) (s : Text) : Bool := (fullMatch? p s).isSome

def captured? (g : Captures) (name : String) : Option Text := (g.find? (fun e => e.1 == name)).map Prod.snd

/-! ### Derived forms -/

/-- One of the listed characters and ranges. -/
def oneOf (ranges : List (Nat × Nat)) : Pattern := .set false ranges

def noneOf (ranges : List (Nat × Nat)) : Pattern := .set true ranges

def literal (s : Text) : Pattern := s.foldr (fun c p => .seq (.set false [(c.val, c.val)]) p) .empty

def plus (p : Pattern) : Pattern := .seq p (.star p)

def opt (p : Pattern) : Pattern := .alt p .empty

def times : Nat → Pattern → Pattern
  | 0, _ => .empty
  | n + 1, p => .seq p (times n p)

/-- `p{n,m}`, greedy: `n` copies, then up to `more` further ones. -/
def upTo (p : Pattern) : Nat → Pattern
  | 0 => .empty
  | more + 1 => opt (.seq p (upTo p more))

def between (least most : Nat) (p : Pattern) : Pattern := .seq (times least p) (upTo p (most - least))

def choice (ps : List Pattern) : Pattern :=
  match ps with
  | [] => .empty
  | [p] => p
  | p :: rest => .alt p (choice rest)

def sequence (ps : List Pattern) : Pattern := ps.foldr .seq .empty

end Pattern
