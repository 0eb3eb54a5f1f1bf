import Coercion.Selection

/-!
# Checks from first principles

Two checkers that recompute what they check instead of using the code under test: a selection against a plain ranking
of the candidates, and a table against transitive closure.
-/

namespace Coercion

/-- What is wrong with a selection or a table. -/
inductive Finding where
  | arity (overload parameters arguments : Nat)
  | count (got want : Int)
  | best (got want : Int)
  | rating (got want : Rating)
  | open (a b c : TypeId) (ab bc ac : Kind)

/-- The wording of a finding. -/
def Finding.message : Finding → String
  | .arity k n a => "overload " ++ toString k ++ " has arity " ++ toString n ++ ", signature " ++ toString a
  | .count g w => "count = " ++ toString g ++ ", want " ++ toString w
  | .best g w => "best = " ++ toString g ++ ", want " ++ toString w
  | .rating g w => "rating = " ++ g.render ++ ", want " ++ w.render
  | .open a b c ab bc ac =>
    a.render ++ "->" ++ b.render ++ " is " ++ ab.name ++ " and " ++ b.render ++ "->" ++ c.render ++ " is " ++ bc.name ++
      ", but " ++ a.render ++ "->" ++ c.render ++ " is " ++ ac.name

namespace Manager

/-- The rating of a candidate counted position by position, or none when it is rejected. -/
def plainRate (m : Manager) (allowLossy : Bool) : Rating → Signature → Signature → Except Fault (Option Rating)
  | r, [], _ => .ok (some r)
  | _, _ :: _, [] => .error .outOfBounds
  | r, a :: args, p :: params => do
    match ← m.compatible ⟨a, p⟩ with
    | .exact | .subtype => m.plainRate allowLossy r args params
    | .promote => m.plainRate allowLossy { r with promote := r.promote + 1 } args params
    | .safe => m.plainRate allowLossy { r with safe := r.safe + 1 } args params
    | .lossy => if allowLossy then m.plainRate allowLossy { r with lossy := r.lossy + 1 } args params else return none
    | .noMatch | .other _ => return none

/-- Ranks the candidates from number `k` on: the first best one, how many share its rating, and that rating. -/
def plainRank (m : Manager) (allowLossy : Bool) (args : Signature) :
    Nat → Selection → List Signature → Except Fault (Except Finding Selection)
  | _, s, [] => .ok (.ok s)
  | k, s, params :: rest => do
    if params.length ≠ args.length then return .error (.arity k params.length args.length)
    match ← m.plainRate allowLossy .zero args params with
    | none => m.plainRank allowLossy args (k + 1) s rest
    | some r =>
      let c := r.compare s.rating
      let s' : Selection :=
        if s.best < 0 || c == .lt then ⟨k, 1, r⟩ else if c == .eq then { s with count := s.count + 1 } else s
      m.plainRank allowLossy args (k + 1) s' rest

/-- Compares a selection with the plain ranking. -/
def checkSelection (m : Manager) (args : Signature) (overloads : List Signature) (allowLossy : Bool)
    (sel : Selection) : Except Fault (Option Finding) := do
  match ← m.plainRank allowLossy args 0 .none overloads with
  | .error f => return some f
  | .ok want =>
    if sel.count ≠ want.count then return some (.count sel.count want.count)
    else if sel.best ≠ want.best then return some (.best sel.best want.best)
    else if sel.rating ≠ want.rating then return some (.rating sel.rating want.rating)
    else return none

/-- The first element with a finding. -/
def firstFinding {α : Type} (f : α → Except Fault (Option Finding)) : List α → Except Fault (Option Finding)
  | [] => .ok none
  | a :: as => do
    match ← f a with
    | some x => return some x
    | none => firstFinding f as

/-- Checks that two conversions in a row over the pool are also registered as one, of a kind no worse than the worse
step. -/
def checkClosed (m : Manager) (pool : List TypeId) : Except Fault (Option Finding) :=
  firstFinding (fun a => firstFinding (fun b => do
    let ab ← m.compatible ⟨a, b⟩
    if a = b || !ab.isConversion then return none
    firstFinding (fun c => do
      if c = a || c = b then return none
      let bc ← m.compatible ⟨b, c⟩
      if !bc.isConversion then return none
      let ac ← m.compatible ⟨a, c⟩
      if !ac.isConversion || (ab.compose bc).code < ac.code then return some (.open a b c ab bc ac)
      return none) pool) pool) pool

end Manager

end Coercion
