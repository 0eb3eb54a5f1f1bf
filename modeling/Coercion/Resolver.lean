import Coercion.Diagnostic.Bag
import Coercion.Registry
import Coercion.Selection
import Coercion.Table.Basic

/-!
# Resolving calls

A resolver keeps named overload sets.  To resolve a call it takes the overloads with as many parameters as there are
arguments, selects among them, and decides what a tie means: overloads with the same parameters do not compete, and
under the asymmetric policy the overload whose earliest differing argument needs the costlier conversion wins.

The manager is read several times for one call.  While it is still being filled, other registrations may come between
these reads, so resolution is stated for a manager that depends on the number of the read.
-/

namespace Coercion

/-- Which conversions are admissible, and whether ties are broken. -/
structure Policy where
  allowLossy : Bool := false
  asymmetric : Bool := false
  deriving DecidableEq, Inhabited

/-- A resolved call. -/
structure Resolution where
  function : String
  /-- The place of the overload in its set. -/
  index : Nat
  signature : Signature
  rating : Rating
  /-- Whether the policy and not the rating decided. -/
  tieBroken : Bool
  deriving DecidableEq, Inhabited

/-- An overload with its place in its set. -/
abbrev Candidate := Signature × Nat

/-- Named overload sets, in the order of their definition. -/
structure Resolver where
  policy : Policy := {}
  /-- The names of types in messages. -/
  names : Option Registry := none
  functions : List (String × List Signature) := []
  deriving Inhabited

namespace Resolver

/-- Why a call has no resolution. -/
inductive Failure where
  | unknownFunction (name : String) (args : Signature)
  /-- No overload has as many parameters as there are arguments. -/
  | arity (name : String) (args : Signature)
  /-- No overload is admissible; `lossyOnly` if one would be with lossy conversions. -/
  | noMatch (name : String) (args : Signature) (lossyOnly : Bool)
  /-- Several overloads are equally good. -/
  | ambiguous (name : String) (args : Signature) (tied : List Candidate)
  deriving DecidableEq

/-- A signature in messages: by names, or by identifiers. -/
def render (r : Resolver) (sig : Signature) : String :=
  match r.names with
  | some reg => reg.nameAll sig
  | none => "[" ++ " ".intercalate (sig.map TypeId.render) ++ "]"

/-- A call in messages. -/
def renderCall (r : Resolver) (name : String) (args : Signature) : String := name ++ r.render args

/-- The wording of a failure. -/
def message (r : Resolver) : Failure → String
  | .unknownFunction name _ => "unknown function: " ++ name
  | .arity name args => r.renderCall name args ++ ": no overload takes that many arguments"
  | .noMatch name args true => r.renderCall name args ++ ": only unsafe conversions match"
  | .noMatch name args false => r.renderCall name args ++ ": no matching overload"
  | .ambiguous name args tied =>
    "ambiguous overloading for " ++ r.renderCall name args ++ ":\n  " ++
      "\n  ".intercalate (tied.map fun c => r.renderCall name c.1)

/-! ### Overload sets -/

/-- The overloads of a name. -/
def overloads? (r : Resolver) (name : String) : Option (List Signature) := r.functions.lookup name

/-- The names in the order of their definition. -/
def functionNames (r : Resolver) : List String := r.functions.map (·.1)

/-- Adds overloads to the set of a name in a list of sets. -/
def defineIn (name : String) (overloads : List Signature) :
    List (String × List Signature) → List (String × List Signature)
  | [] => [(name, overloads)]
  | f :: fs => if f.1 = name then (name, f.2 ++ overloads) :: fs else f :: defineIn name overloads fs

/-- Adds overloads to a name, whose set is made if there is none. -/
def define (r : Resolver) (name : String) (overloads : List Signature) : Resolver :=
  { r with functions := defineIn name overloads r.functions }

/-- The signatures of overloads that can be read, and the problems of the others, from number `j` on. -/
def readOverloads (reg : Registry) (subject : String) : Nat → List String → List Signature × List Diagnostic
  | _, [] => ([], [])
  | j, text :: rest =>
    let (sigs, problems) := readOverloads reg subject (j + 1) rest
    match reg.parseSignature text with
    | .ok sig => (sig :: sigs, problems)
    | .error e =>
      (sigs, .error .unknownType (subject ++ " overload " ++ toString j) e.message :: problems)

/-- Defines the functions of a table from number `i` on. -/
def defineAll (reg : Registry) : Nat → List Overloaded → Resolver → Resolver × List Diagnostic
  | _, [], r => (r, [])
  | i, f :: fs, r =>
    let subject := "functions[" ++ toString i ++ "] " ++ f.name
    if f.name = "" then
      let (r, problems) := defineAll reg (i + 1) fs r
      (r, .error .badFunction subject "missing name" :: problems)
    else
      let (sigs, here) := readOverloads reg subject 0 f.overloads
      let (r, problems) := defineAll reg (i + 1) fs (r.define f.name sigs)
      (r, here ++ problems)

/-- A resolver with the functions of a table, and the bag of their problems. -/
def ofFunctions (reg : Registry) (functions : List Overloaded) (policy : Policy) : Resolver × Bag :=
  let (r, problems) := defineAll reg 0 functions { policy, names := some reg }
  (r, problems.foldl Bag.add (.ofCapacity 64))

/-! ### Resolution -/

/-- The overloads with a number of parameters. -/
def candidates (overloads : List Signature) (arity : Nat) : List Candidate :=
  overloads.zipIdx.filter fun c => c.1.length = arity

/-- The order of ratings per argument: the first difference decides. -/
def comparePositions : List Rating → List Rating → Ordering
  | a :: as, b :: bs => (a.compare b).then (comparePositions as bs)
  | _, _ => .eq

/-- The costliest candidate so far, its ratings, and whether it stands alone. -/
structure Leader where
  candidate : Candidate
  rates : List Rating
  alone : Bool

/-- Takes a candidate into account. -/
def challenge (leader : Option Leader) (c : Candidate) (rates : List Rating) : Leader :=
  match leader with
  | none => ⟨c, rates, true⟩
  | some l =>
    match comparePositions rates l.rates with
    | .gt => ⟨c, rates, true⟩
    | .eq => { l with alone := false }
    | .lt => l

/-- The costliest of tied candidates, the manager being read from read number `n` on. -/
def leaderOf (view : Nat → Manager) (allowLossy : Bool) (args : Signature) :
    Nat → Option Leader → List Candidate → Except Fault (Option Leader)
  | _, leader, [] => .ok leader
  | n, leader, c :: cs => do
    match ← (view n).rateArguments args c.1 allowLossy with
    | none => leaderOf view allowLossy args (n + 1) leader cs
    | some rates => leaderOf view allowLossy args (n + 1) (some (challenge leader c rates)) cs

/-- The candidate that wins a tie, if one does. -/
def breakTie (view : Nat → Manager) (allowLossy : Bool) (args : Signature) (tied : List Candidate) :
    Except Fault (Option Candidate) := do
  match ← leaderOf view allowLossy args 2 none tied with
  | some l => return if l.alone then some l.candidate else none
  | none => return none

/-- Decides between several candidates of a rating. -/
def resolveTie (r : Resolver) (view : Nat → Manager) (name : String) (args : Signature) (cands : List Candidate)
    (best : Rating) : Except Fault (Except Failure Resolution) := do
  let allowLossy := r.policy.allowLossy
  let ratings ← (view 1).rate args (cands.map (·.1)) allowLossy
  let tied := ((cands.zip ratings).filter fun c => c.2 == best).map (·.1)
  match tied with
  | [] => .error .outOfBounds
  | first :: rest =>
    if rest.all fun c => c.1 == first.1 then return .ok ⟨name, first.2, first.1, best, false⟩
    else do
      let winner ← if r.policy.asymmetric then breakTie view allowLossy args tied else pure none
      match winner with
      | some c => return .ok ⟨name, c.2, c.1, best, true⟩
      | none => return .error (.ambiguous name args tied)

/-- Resolves a call; read number `n` sees the manager `view n`. -/
def resolveAt (r : Resolver) (view : Nat → Manager) (name : String) (args : Signature) :
    Except Fault (Except Failure Resolution) := do
  match r.overloads? name with
  | none => return .error (.unknownFunction name args)
  | some overloads =>
    let cands := candidates overloads args.length
    if cands.isEmpty then return .error (.arity name args)
    else do
      let sigs := cands.map (·.1)
      let sel ← (view 0).select args sigs r.policy.allowLossy
      match sel.outcome with
      | .noMatch => do
        let lossyOnly ← if r.policy.allowLossy then pure false
          else (view 1).select args sigs true |>.map fun s => decide (0 < s.count)
        return .error (.noMatch name args lossyOnly)
      | .unique =>
        match cands[sel.best.toNat]? with
        | some c => return .ok ⟨name, c.2, c.1, sel.rating, false⟩
        | none => .error .outOfBounds
      | .ambiguous => r.resolveTie view name args cands sel.rating

/-- Resolves a call. -/
def resolve (r : Resolver) (m : Manager) (name : String) (args : Signature) :
    Except Fault (Except Failure Resolution) :=
  r.resolveAt (fun _ => m) name args

/-! ### Diagnostics -/

/-- What a failure reports, with the overloads that were considered. -/
def Failure.report (r : Resolver) (e : Failure) : Diagnostic :=
  let considered (name : String) (d : Diagnostic) : Diagnostic :=
    ((r.overloads? name).getD []).foldl (fun d sig => d.withNote (r.renderCall name sig) "candidate") d
  match e with
  | .unknownFunction name args => .error .unknownFunction (r.renderCall name args) (r.message e)
  | .arity name args => considered name (.error .arityMismatch (r.renderCall name args) (r.message e))
  | .noMatch name args lossyOnly =>
    considered name
      (.error (if lossyOnly then .lossyRejected else .noOverload) (r.renderCall name args) (r.message e))
  | .ambiguous name args tied =>
    tied.foldl (fun d c => d.withNote (r.renderCall name c.1) "equally good")
      (.error .ambiguousOverload (r.renderCall name args) (toString tied.length ++ " candidates tie"))

/-- What a resolved call reports: a tie that was broken. -/
def report? (r : Resolver) (args : Signature) (res : Resolution) : Option Diagnostic :=
  if res.tieBroken then
    some (.warning .ambiguousOverload (r.renderCall res.function args)
      ("tie broken in favour of " ++ r.renderCall res.function res.signature))
  else none

/-- Resolves a call and collects what it reports. -/
def diagnose (r : Resolver) (m : Manager) (bag : Bag) (name : String) (args : Signature) :
    Except Fault (Option Resolution × Bag) := do
  match ← r.resolve m name args with
  | .ok res =>
    return (some res, match r.report? args res with
      | some d => bag.add d
      | none => bag)
  | .error e => return (none, bag.add (e.report r))

end Resolver

end Coercion
