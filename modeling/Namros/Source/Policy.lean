import Namros.Source.Repository

/-!
# Policy documents

`PolicyDocument.Decide` of `auth/policy.go:40-139` with `actionMatches` of `auth/auth.go:118-134`,
which both actions and resources go through.
-/

namespace Namros.Source

/-- `auth.Principal`; `Clone` is the same value. -/
structure Principal extends AuditPrincipal where
  permissions : List String := []
deriving DecidableEq

structure PolicyDecision where
  allowed : Bool
  source : String := "policy_document"
  (reason action resource : String)
  statementSid : String := ""
  principal : Principal
  policyVersion : String
deriving DecidableEq

def compactStrings (values : List String) : List String :=
  (values.map trimSpace).filter (· ≠ "")

def principalMatchCandidates (principal : Principal) : List String :=
  compactStrings ([principal.accessKeyID, principal.tenantID, principal.displayName,
    principal.subject, principal.sessionID, principal.externalIssuer, principal.sourceIdentity] ++
    principal.groups ++ principal.roles)

def principalMatches (principals : List String) (principal : Principal) : Bool :=
  principals.any fun candidate =>
    trimSpace candidate == "*" || (principalMatchCandidates principal).any fun value =>
      trimSpace candidate ≠ "" && trimSpace candidate == value

variable (platform : Platform)

def actionMatches (permission action : String) : Bool :=
  let permission := trimSpace permission
  if permission = "" then false
  else if permission = "*" then true
  else if platform.equalFold permission action then true
  else if permission.toList.getLast? = some '*' then
    (platform.toLower (String.ofList permission.toList.dropLast)).toList.isPrefixOf
      (platform.toLower action).toList
  else false

def matchesAny (patterns : List String) (value : String) : Bool :=
  patterns.any (actionMatches platform · value)

def PolicyStatement.matches (s : PolicyStatement) (principal : Principal)
    (action resource : String) : Bool :=
  principalMatches s.principals principal && matchesAny platform s.actions action &&
    matchesAny platform s.resources resource

/-- The loop of `Decide`, with what it has allowed so far. -/
def decideFrom (principal : Principal) (action resource : String) (allowSid : Option String) :
    List PolicyStatement → PolicyDecision
  | [] =>
    { allowed := allowSid.isSome
      reason := if allowSid.isSome then "allow matched" else "no matching allow"
      action := trimSpace action, resource := trimSpace resource
      statementSid := allowSid.getD "", principal, policyVersion := principal.policyVersion }
  | s :: statements =>
    if ¬ s.matches platform principal action resource then
      decideFrom principal action resource allowSid statements
    else if platform.equalFold s.effect "Deny" then
      { allowed := false, reason := "explicit deny"
        action := trimSpace action, resource := trimSpace resource
        statementSid := s.sid, principal, policyVersion := principal.policyVersion }
    else decideFrom principal action resource
      (if platform.equalFold s.effect "Allow" then some s.sid else allowSid) statements

def PolicyDocument.decide (p : PolicyDocument) (principal : Principal)
    (action resource : String) : PolicyDecision :=
  decideFrom platform principal action resource none p.statements

end Namros.Source
