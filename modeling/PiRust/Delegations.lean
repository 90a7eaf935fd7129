import PiRust.DelegationConfirmation

/- `delegation.rs`: which of the delegations that a prompt requested are carried out, which wait
for a confirmation and which are turned down. -/
namespace PiRust.Delegation

open List DelegationConfirmation SessionLog

inductive DelegationConfirmationMode where
  | never
  | always
  | writes
  deriving DecidableEq

structure DelegationPolicy where
  allowDelegateAgent : Bool := false
  allowDelegateTeam : Bool := false
  maxDepth : Nat := 0
  maxParallelChildren : Nat := 1
  requireConfirmation : DelegationConfirmationMode := .writes
  allowedAgents : List String := []
  allowedTeams : List String := []
  deriving DecidableEq

structure DelegationLineageEntry where
  kind : ProfileKind
  id : String
  deriving DecidableEq

inductive DelegationAuthorizationDecision where
  | approved (request : DelegationRequest) (childDelegationDepth : Nat)
  | requiresConfirmation (request : DelegationRequest) (reason : String)
      (childDelegationDepth : Nat)
  | rejected (request : DelegationRequest) (reason : String)
  deriving DecidableEq

def DelegationAuthorizationDecision.request : DelegationAuthorizationDecision → DelegationRequest
  | .approved request _ => request
  | .requiresConfirmation request _ _ => request
  | .rejected request _ => request

def pushUniqueLineageEntry (lineage : List DelegationLineageEntry)
    (entry : DelegationLineageEntry) : List DelegationLineageEntry :=
  if entry ∈ lineage then lineage else lineage ++ [entry]

def delegationLineageForRequest (parentLineage : List DelegationLineageEntry)
    (request : DelegationRequest) : List DelegationLineageEntry :=
  pushUniqueLineageEntry
    (pushUniqueLineageEntry parentLineage ⟨.agent, request.requestingProfileId⟩)
    ⟨request.targetKind, request.targetId⟩

def profileKindLabel : ProfileKind → String
  | .agent => "agent"
  | .team => "team"

def targetIsAllowed (allowed : List String) (target : String) : Bool :=
  allowed.isEmpty || allowed.contains target

def rejectionReason (request : DelegationRequest) (policy : DelegationPolicy)
    (currentDepth acceptedChildren : Nat) (lineage : List DelegationLineageEntry) :
    Option String :=
  if policy.maxDepth ≤ currentDepth then some "delegation policy max_depth is exhausted"
  else if policy.maxParallelChildren ≤ acceptedChildren then
    some "delegation policy max_parallel_children is exhausted"
  else if ⟨request.targetKind, request.targetId⟩ ∈ lineage then
    some ("delegation cycle detected for " ++ profileKindLabel request.targetKind ++ " target " ++
      request.targetId)
  else
    match request.targetKind with
    | .agent =>
      if !policy.allowDelegateAgent then
        some "delegation policy does not allow agent delegation"
      else if !targetIsAllowed policy.allowedAgents request.targetId then
        some "target agent is not allowed by delegation policy"
      else none
    | .team =>
      if !policy.allowDelegateTeam then some "delegation policy does not allow team delegation"
      else if !targetIsAllowed policy.allowedTeams request.targetId then
        some "target team is not allowed by delegation policy"
      else none

def confirmationReason (request : DelegationRequest) (policy : DelegationPolicy) : Option String :=
  match policy.requireConfirmation with
  | .never => none
  | .always => some "delegation policy requires confirmation"
  | .writes =>
    if request.targetKind = .team then
      some "team delegation requires confirmation under writes policy"
    else none

/-- The closure of `authorize_delegation_requests_with_lineage`, with its counter of accepted
children. -/
def authorizeFrom (policy : DelegationPolicy) (currentDepth : Nat)
    (lineage : List DelegationLineageEntry) :
    Nat → List DelegationRequest → List DelegationAuthorizationDecision
  | _, [] => []
  | acceptedChildren, request :: rest =>
    match rejectionReason request policy currentDepth acceptedChildren
        (pushUniqueLineageEntry lineage ⟨.agent, request.requestingProfileId⟩) with
    | some reason =>
      .rejected request reason :: authorizeFrom policy currentDepth lineage acceptedChildren rest
    | none =>
      (match confirmationReason request policy with
        | some reason => .requiresConfirmation request reason (currentDepth + 1)
        | none => .approved request (currentDepth + 1)) ::
        authorizeFrom policy currentDepth lineage (acceptedChildren + 1) rest

def authorizeDelegationRequestsWithLineage (requests : List DelegationRequest)
    (policy : DelegationPolicy) (currentDepth : Nat) (lineage : List DelegationLineageEntry) :
    List DelegationAuthorizationDecision :=
  authorizeFrom policy currentDepth lineage 0 requests

section
variable {policy : DelegationPolicy} {currentDepth : Nat} {lineage : List DelegationLineageEntry}

variable (acceptedChildren : Nat)

variable (requests : List DelegationRequest)

theorem authorizeFrom_requests :
    (authorizeFrom policy currentDepth lineage acceptedChildren requests).map
      DelegationAuthorizationDecision.request = requests := by
  induction requests generalizing acceptedChildren with
  | nil => rfl
  | cons request rest ih =>
    unfold authorizeFrom
    cases rejectionReason request policy currentDepth acceptedChildren
        (pushUniqueLineageEntry lineage ⟨.agent, request.requestingProfileId⟩) with
    | some reason => exact congrArg (request :: ·) (ih acceptedChildren)
    | none =>
      cases confirmationReason request policy with
      | some reason => exact congrArg (request :: ·) (ih (acceptedChildren + 1))
      | none => exact congrArg (request :: ·) (ih (acceptedChildren + 1))

theorem authorized_requests :
    (authorizeDelegationRequestsWithLineage requests policy currentDepth lineage).map
      DelegationAuthorizationDecision.request = requests :=
  authorizeFrom_requests 0 requests

def DelegationAuthorizationDecision.child : DelegationAuthorizationDecision → Option Nat
  | .approved _ childDepth => some childDepth
  | .requiresConfirmation _ _ childDepth => some childDepth
  | .rejected _ _ => none

theorem rejectionReason_none {request : DelegationRequest} {acceptedChildren : Nat}
    (accepted : rejectionReason request policy currentDepth acceptedChildren lineage = none) :
    currentDepth < policy.maxDepth ∧ acceptedChildren < policy.maxParallelChildren ∧
      ⟨request.targetKind, request.targetId⟩ ∉ lineage := by
  unfold rejectionReason at accepted
  split at accepted
  · cases accepted
  · next shallow =>
    split at accepted
    · cases accepted
    · next room =>
      split at accepted
      · cases accepted
      · next fresh => exact ⟨Nat.lt_of_not_le shallow, Nat.lt_of_not_le room, fresh⟩

theorem confirmed_child (request : DelegationRequest) (childDepth : Nat) :
    (match confirmationReason request policy with
      | some reason => DelegationAuthorizationDecision.requiresConfirmation request reason childDepth
      | none => .approved request childDepth).child = some childDepth := by
  cases confirmationReason request policy with
  | some reason => rfl
  | none => rfl

theorem confirmed_request (request : DelegationRequest) (childDepth : Nat) :
    (match confirmationReason request policy with
      | some reason => DelegationAuthorizationDecision.requiresConfirmation request reason childDepth
      | none => .approved request childDepth).request = request := by
  cases confirmationReason request policy with
  | some reason => rfl
  | none => rfl

theorem authorizeFrom_child :
    ∀ decision ∈ authorizeFrom policy currentDepth lineage acceptedChildren requests,
      ∀ childDepth, decision.child = some childDepth →
        childDepth = currentDepth + 1 ∧ currentDepth < policy.maxDepth ∧
          ⟨decision.request.targetKind, decision.request.targetId⟩ ∉
            pushUniqueLineageEntry lineage ⟨.agent, decision.request.requestingProfileId⟩ := by
  induction requests generalizing acceptedChildren with
  | nil => exact forall_mem_nil _
  | cons first rest ih =>
    intro decision member childDepth child
    unfold authorizeFrom at member
    split at member
    · rcases mem_cons.mp member with rfl | later
      · cases child
      · exact ih acceptedChildren decision later childDepth child
    · next accepted =>
      rcases mem_cons.mp member with rfl | later
      · rw [confirmed_child] at child
        cases child
        obtain ⟨shallow, _, fresh⟩ := rejectionReason_none accepted
        rw [confirmed_request]
        exact ⟨rfl, shallow, fresh⟩
      · exact ih (acceptedChildren + 1) decision later childDepth child

theorem authorizeFrom_few :
    (authorizeFrom policy currentDepth lineage acceptedChildren requests).countP
      (·.child.isSome) ≤ policy.maxParallelChildren - acceptedChildren := by
  induction requests generalizing acceptedChildren with
  | nil => exact Nat.zero_le _
  | cons first rest ih =>
    unfold authorizeFrom
    split
    · rw [countP_cons_of_neg (by exact Bool.false_ne_true)]
      exact ih acceptedChildren
    · next accepted =>
      have room := (rejectionReason_none accepted).2.1
      have later := ih (acceptedChildren + 1)
      rw [countP_cons_of_pos (by rw [confirmed_child]; rfl)]
      omega

theorem mem_pushUnique {entry other : DelegationLineageEntry} :
    other ∈ pushUniqueLineageEntry lineage entry ↔ other ∈ lineage ∨ other = entry := by
  rw [pushUniqueLineageEntry]
  split
  · next known =>
    constructor
    · exact .inl
    · rintro (inside | rfl)
      · exact inside
      · exact known
  · rw [mem_append, mem_singleton]

theorem pushUnique_nodup (distinct : lineage.Nodup) (entry : DelegationLineageEntry) :
    (pushUniqueLineageEntry lineage entry).Nodup := by
  rw [pushUniqueLineageEntry]
  split
  · exact distinct
  · next new =>
    exact distinct.append (nodup_singleton entry) (disjoint_singleton.mpr new)

/-- The depths and lineages of the prompts in a chain of delegations. Each level has its own
policy and requests. -/
inductive Nested : Nat → List DelegationLineageEntry → Prop
  | root : Nested 0 []
  | child {currentDepth childDepth : Nat} {lineage : List DelegationLineageEntry}
      {policy : DelegationPolicy} {requests : List DelegationRequest}
      {decision : DelegationAuthorizationDecision} : Nested currentDepth lineage →
      decision ∈ authorizeDelegationRequestsWithLineage requests policy currentDepth lineage →
      decision.child = some childDepth →
        Nested childDepth (delegationLineageForRequest lineage decision.request)

/-- What the decisions of one level are held to. -/
structure Restrained (policy : DelegationPolicy) (currentDepth : Nat)
    (lineage : List DelegationLineageEntry) (requests : List DelegationRequest)
    (decisions : List DelegationAuthorizationDecision) : Prop where
  ordered : decisions.map DelegationAuthorizationDecision.request = requests
  few : decisions.countP (·.child.isSome) ≤ policy.maxParallelChildren
  shallow : policy.maxDepth ≤ currentDepth → ∀ decision ∈ decisions, decision.child = none
  fresh : ∀ decision ∈ decisions, decision.child.isSome →
    ⟨decision.request.targetKind, decision.request.targetId⟩ ∉ lineage
  other : ∀ decision ∈ decisions, decision.child.isSome →
    (⟨decision.request.targetKind, decision.request.targetId⟩ : DelegationLineageEntry) ≠
      ⟨.agent, decision.request.requestingProfileId⟩
  deeper : ∀ decision ∈ decisions, ∀ childDepth, decision.child = some childDepth →
    childDepth = currentDepth + 1

theorem authorized_restrained (policy : DelegationPolicy) (currentDepth : Nat)
    (lineage : List DelegationLineageEntry) (requests : List DelegationRequest) :
    Restrained policy currentDepth lineage requests
      (authorizeDelegationRequestsWithLineage requests policy currentDepth lineage) := by
  have child : ∀ decision ∈ authorizeDelegationRequestsWithLineage requests policy currentDepth
      lineage, ∀ childDepth, decision.child = some childDepth →
        childDepth = currentDepth + 1 ∧ currentDepth < policy.maxDepth ∧
          ⟨decision.request.targetKind, decision.request.targetId⟩ ∉
            pushUniqueLineageEntry lineage ⟨.agent, decision.request.requestingProfileId⟩ :=
    authorizeFrom_child 0 requests
  constructor
  · exact authorized_requests requests
  · exact authorizeFrom_few 0 requests
  · intro deep decision member
    cases accepted : decision.child with
    | none => rfl
    | some childDepth =>
      have shallow := (child decision member childDepth accepted).2.1
      exact absurd deep (Nat.not_le.mpr shallow)
  · intro decision member accepted inside
    obtain ⟨childDepth, same⟩ := Option.isSome_iff_exists.mp accepted
    exact (child decision member childDepth same).2.2 (mem_pushUnique.mpr (.inl inside))
  · intro decision member accepted equal
    obtain ⟨childDepth, same⟩ := Option.isSome_iff_exists.mp accepted
    exact (child decision member childDepth same).2.2 (mem_pushUnique.mpr (.inr equal))
  · intro decision member childDepth accepted
    exact (child decision member childDepth accepted).1

theorem lineageForRequest_nodup (distinct : lineage.Nodup) (request : DelegationRequest) :
    (delegationLineageForRequest lineage request).Nodup :=
  pushUnique_nodup (pushUnique_nodup distinct _) _

/-- A chain of delegations is restrained at every level, and no lineage in it names a target
twice. -/
theorem nested_restrained {currentDepth : Nat} {lineage : List DelegationLineageEntry}
    (nested : Nested currentDepth lineage) (policy : DelegationPolicy)
    (requests : List DelegationRequest) :
    lineage.Nodup ∧ Restrained policy currentDepth lineage requests
      (authorizeDelegationRequestsWithLineage requests policy currentDepth lineage) := by
  refine ⟨?_, authorized_restrained policy currentDepth lineage requests⟩
  induction nested with
  | root => exact nodup_nil
  | child _ _ _ distinct => exact lineageForRequest_nodup distinct _

def helperRequest : DelegationRequest where
  operationId := "op_1"
  turnId := "turn_1"
  toolCallId := "call_1"
  requestingProfileId := "lead"
  targetKind := .agent
  targetId := "helper"
  task := "look it up"

def openPolicy : DelegationPolicy where
  allowDelegateAgent := true
  maxDepth := 2
  requireConfirmation := .never

/-- The helper of the lead may not call the lead. -/
theorem helper_restrained :
    [(⟨.agent, "lead"⟩ : DelegationLineageEntry), ⟨.agent, "helper"⟩].Nodup ∧
      Restrained openPolicy 1 [⟨.agent, "lead"⟩, ⟨.agent, "helper"⟩]
        [{ helperRequest with requestingProfileId := "helper", targetId := "lead" }]
        (authorizeDelegationRequestsWithLineage
          [{ helperRequest with requestingProfileId := "helper", targetId := "lead" }] openPolicy 1
          [⟨.agent, "lead"⟩, ⟨.agent, "helper"⟩]) := by
  have called : .approved helperRequest 1 ∈
      authorizeDelegationRequestsWithLineage [helperRequest] openPolicy 0 [] := by
    decide
  have lineage : delegationLineageForRequest [] helperRequest =
      [⟨.agent, "lead"⟩, ⟨.agent, "helper"⟩] := by
    decide
  have nested := Nested.root.child called rfl
  rw [show (DelegationAuthorizationDecision.approved helperRequest 1).request = helperRequest
    from rfl, lineage] at nested
  exact nested_restrained nested openPolicy _

end

end PiRust.Delegation
