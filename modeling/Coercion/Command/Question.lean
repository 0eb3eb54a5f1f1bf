import Coercion.Command.Session

/-!
# Commands that answer questions

How one type may stand in for another, which of some overloads a call selects, and which overload of the table it
resolves to.
-/

namespace Coercion.Command

variable {m : Type → Type} [Monad m] [Host m]

/-- The line that tells how one type may stand in for another. -/
def checkLine (color : Bool) (source target : String) (k : Kind) : String :=
  source ++ " -> " ++ target ++ ": " ++ k.paint color ++ "\n"

/-- Tells how one type may stand in for another and, if asked, the other way round. -/
def runCheck (g : Globals) (both : Bool) (source target : String) : Action m Unit := do
  let s ← openSession g "check" false
  let i ← beginPhase "check"
  match s.loaded.check source target with
  | .error e => do
    endPhase i 0 ""
    throw (.unknownName e)
  | .ok r => do
    let color := (← get).color
    say .output (checkLine color source target (← orFail r .fault))
    if both then
      let back ← orFail (s.loaded.check target source) .unknownName
      say .output (checkLine color target source (← orFail back .fault))
    endPhase i (if both then 2 else 1) ""

/-- The mark of a candidate: a star for the selected one, an equals sign for each of several best ones. -/
def candidateMark (sel : Selection) (i : Nat) (r : Rating) : String :=
  if r.isImpossible then " "
  else if r == sel.rating && 1 < sel.count then "="
  else if (i : Int) = sel.best then "*"
  else " "

/-- The line of a candidate. -/
def candidateLine (reg : Registry) (sel : Selection) (i : Nat) (params : Signature) (r : Rating) : String :=
  candidateMark sel i r ++ " " ++ toString i ++ " " ++ reg.nameAll params ++ "  " ++
    (if r.isImpossible then "no match" else r.render) ++ "\n"

/-- The line that tells what was selected. -/
def outcomeLine (reg : Registry) (cands : List Signature) (sel : Selection) : String :=
  match sel.outcome with
  | .noMatch => "no match\n"
  | .unique => "selected " ++ toString sel.best ++ " " ++ reg.nameAll (cands.getD sel.best.toNat []) ++ "\n"
  | .ambiguous => "ambiguous: " ++ toString sel.count ++ " candidates share the best rating\n"

/-- Reads the candidates of a selection, from number `i` on. -/
def readCandidates (reg : Registry) (arity : Nat) : Nat → List String → Except Failure (List Signature)
  | _, [] => .ok []
  | i, text :: rest => do
    let sig ← (reg.parseSignature text).mapError (.overload i)
    if sig.length ≠ arity then throw (.overloadArity i sig.length arity)
    return sig :: (← readCandidates reg arity (i + 1) rest)

/-- Rates candidates for a call and tells which one is selected. -/
def runSelect (g : Globals) (o : SelectOptions) : Action m Unit := do
  if o.overloads.isEmpty then throw .noOverload
  let s ← openSession g "select" false
  let reg := s.loaded.registry
  let sig ← orFail (reg.parseSignature o.arg) .argument
  let cands ← orFail (readCandidates reg sig.length 0 o.overloads) id
  let lossy := s.allowLossy o.lossy
  let i ← beginPhase "select"
  let sel ← orFail (s.loaded.manager.select sig cands lossy) .fault
  endPhase i 1 ""
  let ratings ← orFail (s.loaded.manager.rate sig cands lossy) .fault
  say .output (String.join ((cands.zip ratings).zipIdx.map fun ((c, r), i) => candidateLine reg sel i c r))
  say .output (outcomeLine reg cands sel)

/-- The overload sets of a resolver, one overload on a line. -/
def overloadLines (r : Resolver) : String :=
  String.join (r.functions.flatMap fun (name, overloads) => overloads.map fun sig => r.renderCall name sig ++ "\n")

/-- The line of a resolved call. -/
def resolutionLine (r : Resolver) (name : String) (args : Signature) (res : Resolution) : String :=
  r.renderCall name args ++ " -> " ++ r.renderCall res.function res.signature ++ " [" ++ toString res.index ++ "] " ++
    res.rating.render ++ "\n"

/-- Resolves a call against the functions of the table and shows what it reports. -/
def resolveCall (s : Session) (r : Resolver) (json : Bool) (name argText : String) : Action m Unit := do
  let args ← orFail (s.loaded.registry.parseSignature argText) .unknownName
  let i ← beginPhase "resolve"
  let (res, bag) ← orFail (r.diagnose s.loaded.manager (.ofCapacity 16) name args) .fault
  endPhase i 1 name
  if json then say .output (bag.toJson.pretty ++ "\n")
  else
    match res with
    | some res => say .output (resolutionLine r name args res)
    | none => pure ()
    showBag bag.sort
  if res.isNone then throw (.unresolved (r.renderCall name args))

/-- Resolves a call, or lists the overload sets. -/
def runResolve (g : Globals) (o : ResolveOptions) (args : List String) : Action m Unit := do
  if o.format ≠ "pretty" ∧ o.format ≠ "json" then throw (.format o.format)
  let s ← openSession g "resolve" false
  let policy : Policy := ⟨s.allowLossy o.lossy, o.asymmetric || s.manifest.asymmetric⟩
  let (r, bag) := Resolver.ofFunctions s.loaded.registry s.loaded.table.functions policy
  match bag.errorText? with
  | some errors => do
    showBag bag
    throw (.functions errors)
  | none =>
    if o.list then say .output (overloadLines r)
    else
      match args with
      | [] => throw .noFunction
      | name :: rest => resolveCall s r (o.format = "json") name (rest.headD "")

end Coercion.Command
