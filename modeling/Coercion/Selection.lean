import Coercion.Manager
import Coercion.Number.Word
import Coercion.Rating

/-!
# Overload selection

A candidate is rated by the conversions its call needs.  It is admissible when every argument converts, and, unless
lossy conversions are allowed, none of them lossily.  A selection names the first of the best candidates and how many
share its rating.
-/

namespace Coercion

/-- The decision a caller reads off a selection. -/
inductive Selection.Outcome where
  | noMatch
  | unique
  | ambiguous
  deriving DecidableEq

/-- The name of an outcome. -/
def Selection.Outcome.name : Selection.Outcome → String
  | .noMatch => "no-match"
  | .unique => "unique"
  | .ambiguous => "ambiguous"

/-- The outcome with a given number. -/
def Selection.Outcome.ofCode? : Nat → Option Selection.Outcome
  | 0 => some .noMatch
  | 1 => some .unique
  | 2 => some .ambiguous
  | _ => none

/-- The name of the outcome with a given number, also when there is none. -/
def Selection.Outcome.nameOfCode (n : Nat) : String :=
  match ofCode? n with
  | some o => o.name
  | none => "Outcome(" ++ toString n ++ ")"

/-- The best rating among candidates. -/
structure Selection where
  /-- The first candidate with the best rating, `-1` when there is none. -/
  best : Int
  /-- How many candidates share the best rating. -/
  count : Int
  /-- The best rating, impossible when there is none. -/
  rating : Rating
  deriving DecidableEq, Inhabited

namespace Selection

/-- No candidate was admissible. -/
def none : Selection := ⟨-1, 0, .impossible⟩

/-- Classifies a selection by its count. -/
def outcome (s : Selection) : Outcome :=
  if s.count = 0 then .noMatch else if s.count = 1 then .unique else .ambiguous

/-- The chosen candidate of an unambiguous selection. -/
def unique? (s : Selection) : Option Int :=
  if s.count = 1 then some s.best else Option.none

/-- Takes candidate `k` of rating `r` into account. -/
def consider (s : Selection) (k : Nat) (r : Rating) : Selection :=
  if r.isImpossible then s
  else if s.count = 0 || r.less s.rating then ⟨k, 1, r⟩
  else if r = s.rating then { s with count := s.count + 1 }
  else s

end Selection

/-- Whether a position of this kind lets its candidate take part. -/
def Kind.admissible (allowLossy : Bool) : Kind → Bool
  | .noMatch => false
  | .lossy => allowLossy
  | _ => true

namespace Manager

/-- Rates the positions that are left, on top of the rating of those before; the first inadmissible one decides. -/
def rateFrom (m : Manager) (allowLossy : Bool) : Rating → Signature → Signature → Except Fault Rating
  | r, [], _ => .ok r
  | _, _ :: _, [] => .error .outOfBounds
  | r, a :: args, p :: params => do
    let k ← m.compatible ⟨a, p⟩
    if k.admissible allowLossy then m.rateFrom allowLossy (r.count k) args params else return .impossible

/-- The rating of a candidate whose parameters are as many as the arguments. -/
def rateOne (m : Manager) (allowLossy : Bool) (args params : Signature) : Except Fault Rating :=
  m.rateFrom allowLossy .zero args params

/-- Requires candidate `k` to have as many parameters as the call has arguments. -/
def requireArity (args params : Signature) (k : Nat) : Except Fault Unit :=
  if params.length = args.length then .ok () else .error (.arity k params.length args.length)

/-- The ratings of the candidates from number `k` on. -/
def rateAll (m : Manager) (allowLossy : Bool) (args : Signature) :
    Nat → List Signature → Except Fault (List Rating)
  | _, [] => .ok []
  | k, params :: rest => do
    requireArity args params k
    let r ← m.rateOne allowLossy args params
    let rs ← m.rateAll allowLossy args (k + 1) rest
    return r :: rs

/-- The rating of every candidate, impossible for rejected ones. -/
def rate (m : Manager) (args : Signature) (overloads : List Signature) (allowLossy : Bool) :
    Except Fault (List Rating) :=
  m.rateAll allowLossy args 0 overloads

/-- Considers the candidates from number `k` on. -/
def selectFrom (m : Manager) (allowLossy : Bool) (args : Signature) :
    Nat → Selection → List Signature → Except Fault Selection
  | _, s, [] => .ok s
  | k, s, params :: rest => do
    requireArity args params k
    let r ← m.rateOne allowLossy args params
    m.selectFrom allowLossy args (k + 1) (s.consider k r) rest

/-- Rates every candidate and selects the best. -/
def select (m : Manager) (args : Signature) (overloads : List Signature) (allowLossy : Bool) :
    Except Fault Selection :=
  m.selectFrom allowLossy args 0 .none overloads

/-- The `n` candidates that are left in a flat list, from number `k` on. -/
def selectFlatFrom (m : Manager) (allowLossy : Bool) (args : Signature) :
    (n k : Nat) → Selection → List TypeId → Except Fault Selection
  | 0, _, s, _ => .ok s
  | n + 1, k, s, flat => do
    if flat.length < args.length then .error .outOfBounds
    let r ← m.rateOne allowLossy args (flat.take args.length)
    m.selectFlatFrom allowLossy args n (k + 1) (s.consider k r) (flat.drop args.length)

/-- Selects among `count` candidates laid out back to back.  The size of the flat list is checked in 64-bit
arithmetic, which wraps. -/
def selectFlat (m : Manager) (args : Signature) (flat : List TypeId) (count : Int) (allowLossy : Bool) :
    Except Fault Selection :=
  if count < 0 ∨ (flat.length : Int) ≠ (count * args.length).bmod Number.wordCount then
    .error (.flatSize flat.length count args.length)
  else m.selectFlatFrom allowLossy args count.toNat 0 .none flat

/-- The ratings of the positions that are left, or none when one of them rejects the candidate. -/
def ratePositions (m : Manager) (allowLossy : Bool) : Signature → Signature → Except Fault (Option (List Rating))
  | [], _ => .ok (some [])
  | _ :: _, [] => .error .outOfBounds
  | a :: args, p :: params => do
    let k ← m.compatible ⟨a, p⟩
    if k.admissible allowLossy then
      return (← m.ratePositions allowLossy args params).map (Rating.zero.count k :: ·)
    else return none

/-- One rating per argument, or none when some position rejects the candidate. -/
def rateArguments (m : Manager) (args params : Signature) (allowLossy : Bool) :
    Except Fault (Option (List Rating)) := do
  requireArity args params 0
  m.ratePositions allowLossy args params

end Manager

end Coercion
