import Mau.Decompile.Driver

/-! # Where resolved signatures come from

Resolution writes a signature only where a lookup answered, and only one of the candidates of
that answer: the function's from the candidates `match_parameters` kept for it, an error's from
the error lookup of its key, an event's from the event lookup of the first 64 characters of its
key. A slot no lookup filled keeps what the analysis left there (`ResolvedFrom`).

Each loop of the resolving round writes one kind of slot and leaves the others
(`resolveFunction_from`, `resolveErrors_from`, `resolveEvents_from`), so every function a
resolving run hands to `build_output` is so related to its analysis
(`decompile_resolvedFrom`).
-/

namespace Mau.Decompile

/-- Every entry of `after` is an entry of `before`, or holds a candidate of the lookup of its
key. -/
def FromLookup {ρ : Type} (lookup : String → Option (List ResolvedSignature))
    (signature : ρ → Option ResolvedSignature) (before after : HashMap String ρ) : Prop :=
  ∀ entry ∈ after.entries, entry ∈ before.entries ∨
    ∃ candidates, lookup entry.1 = some candidates ∧ ∃ selected ∈ candidates,
      signature entry.2 = some selected

/-- The event lookup of a key: the lookup of its first 64 characters. -/
def eventLookup (c : Collaborators) (key : String) : Option (List ResolvedSignature) :=
  (strPrefix key 64).bind c.resolveEventSignature

/-- **Resolution invents no signature.** `resolved` is `analyzed`, the analysis of `selector`,
with its resolved function kept or taken from the candidates matched among those
`resolvedSelectors` holds for that selector, and with each error and event entry kept or given
a candidate of the lookup of its key. -/
def ResolvedFrom (c : Collaborators) (resolvedSelectors : HashMap String (List ResolvedSignature))
    (selector : String) (analyzed resolved : Function) : Prop :=
  (resolved.resolvedFunction = analyzed.resolvedFunction ∨
    ∃ candidates, resolvedSelectors.get selector = some candidates ∧
      ∃ selected ∈ c.matchParameters candidates analyzed,
        resolved.resolvedFunction = some selected) ∧
  FromLookup c.resolveErrorSignature id analyzed.errors resolved.errors ∧
  FromLookup (eventLookup c) Prod.fst analyzed.events resolved.events

section FromLookup

variable {ρ : Type} {lookup : String → Option (List ResolvedSignature)}
  {signature : ρ → Option ResolvedSignature}

theorem FromLookup.refl (map : HashMap String ρ) : FromLookup lookup signature map map :=
  fun _ member => Or.inl member

theorem FromLookup.trans {first second third : HashMap String ρ}
    (early : FromLookup lookup signature first second)
    (late : FromLookup lookup signature second third) : FromLookup lookup signature first third :=
  fun entry member => (late entry member).elim (early entry) Or.inr

/-- Storing a candidate of a key's lookup at that key. -/
theorem FromLookup.insert {map : HashMap String ρ} {key : String} {value : ρ}
    {candidates : List ResolvedSignature} {selected : ResolvedSignature}
    (found : lookup key = some candidates) (member : selected ∈ candidates)
    (stored : signature value = some selected) :
    FromLookup lookup signature map (map.insert key value) :=
  fun entry inserted => (HashMap.mem_entries_insert inserted).imp_right fun same => by
    subst same
    exact ⟨candidates, found, selected, member, stored⟩

end FromLookup

variable {c : Collaborators} {defaultVal : Bool}

theorem unwrap_eq_ok {α : Type} {value : Option α} {result : α} :
    unwrap value = .ok result ↔ value = some result := by
  cases value <;> simp [unwrap]

/-- The function-signature block writes only the resolved function, with a candidate matched
among those resolved for the selector. -/
theorem resolveFunction_from {resolvedSelectors : HashMap String (List ResolvedSignature)}
    {selector : String} {analyzedFunction signed : Function}
    (ran : resolveFunction c defaultVal resolvedSelectors selector analyzedFunction =
      .ok (some signed)) :
    signed = { analyzedFunction with resolvedFunction := signed.resolvedFunction } ∧
      (signed.resolvedFunction = analyzedFunction.resolvedFunction ∨
        ∃ candidates, resolvedSelectors.get selector = some candidates ∧
          ∃ selected ∈ c.matchParameters candidates analyzedFunction,
            signed.resolvedFunction = some selected) := by
  unfold resolveFunction at ran
  split at ran
  · cases ran
  rename_i candidates found
  dsimp only at ran
  split at ran
  · cases ran
    exact ⟨rfl, Or.inl rfl⟩
  · obtain ⟨selected, chosen, same⟩ := map_eq_ok.mp ran
    cases same
    exact ⟨rfl, Or.inr ⟨candidates, found, selected, selectMatch_mem chosen, rfl⟩⟩

/-- The error loop writes only errors, each with a candidate of the lookup of its key. -/
theorem resolveErrors_from :
    ∀ (entries : List (String × Option ResolvedSignature)) (analyzedFunction resolved : Function),
      resolveErrors c defaultVal entries analyzedFunction = .ok resolved →
      resolved = { analyzedFunction with errors := resolved.errors } ∧
        FromLookup c.resolveErrorSignature id analyzedFunction.errors resolved.errors
  | [], analyzedFunction, _, ran => by
    cases ran
    exact ⟨rfl, FromLookup.refl _⟩
  | (errorSelector, _) :: rest, analyzedFunction, resolved, ran => by
    unfold resolveErrors at ran
    split at ran
    · rename_i candidates found
      obtain ⟨selected, chosen, ran⟩ := bind_eq_ok.mp ran
      obtain ⟨same, later⟩ := resolveErrors_from rest _ resolved ran
      exact ⟨same, FromLookup.trans (FromLookup.insert found (selectMatch_mem chosen) rfl) later⟩
    · exact resolveErrors_from rest analyzedFunction resolved ran

/-- The event loop writes only events, each with a candidate of the lookup of its key. -/
theorem resolveEvents_from :
    ∀ (entries : List (String × (Option ResolvedSignature × Log)))
      (analyzedFunction resolved : Function),
      resolveEvents c defaultVal entries analyzedFunction = .ok resolved →
      resolved = { analyzedFunction with events := resolved.events } ∧
        FromLookup (eventLookup c) Prod.fst analyzedFunction.events resolved.events
  | [], analyzedFunction, _, ran => by
    cases ran
    exact ⟨rfl, FromLookup.refl _⟩
  | (eventSelector, (_, rawEvent)) :: rest, analyzedFunction, resolved, ran => by
    unfold resolveEvents at ran
    obtain ⟨_, _, ran⟩ := bind_eq_ok.mp ran
    obtain ⟨topic, sliced, ran⟩ := bind_eq_ok.mp ran
    split at ran
    · rename_i candidates found
      have lookedUp : eventLookup c eventSelector = some candidates := by
        rw [eventLookup, unwrap_eq_ok.mp sliced, Option.some_bind, found]
      obtain ⟨selected, chosen, ran⟩ := bind_eq_ok.mp ran
      obtain ⟨same, later⟩ := resolveEvents_from rest _ resolved ran
      exact ⟨same, FromLookup.trans (FromLookup.insert lookedUp (selectMatch_mem chosen) rfl) later⟩
    · exact resolveEvents_from rest analyzedFunction resolved ran

theorem analyzeSelector_from {resolvedSelectors : HashMap String (List ResolvedSignature)}
    {selector : String} {result : Option Function}
    (ran : analyzeSelector c defaultVal false resolvedSelectors selector = .ok result) :
    Option.Rel (ResolvedFrom c resolvedSelectors selector)
      (resolvable c resolvedSelectors selector) result := by
  rcases analyzeSelector_resolving_cases ran with ⟨rfl, expected⟩ |
    ⟨analyzedFunction, signed, withErrors, resolved, expected, resolving, errors, events, rfl⟩
  · rw [expected]
    exact .none
  obtain ⟨signedIs, function⟩ := resolveFunction_from resolving
  obtain ⟨withErrorsIs, errorsFrom⟩ := resolveErrors_from _ _ _ errors
  obtain ⟨resolvedIs, eventsFrom⟩ := resolveEvents_from _ _ _ events
  have keptFunction : resolved.resolvedFunction = signed.resolvedFunction := by
    rw [resolvedIs, withErrorsIs]
  have keptErrors : resolved.errors = withErrors.errors := by rw [resolvedIs]
  have keptEvents : withErrors.events = analyzedFunction.events := by rw [withErrorsIs, signedIs]
  have signedErrors : signed.errors = analyzedFunction.errors := by rw [signedIs]
  rw [expected]
  refine .some ⟨?_, ?_, ?_⟩
  · rw [keptFunction]
    exact function
  · rw [keptErrors, ← signedErrors]
    exact errorsFrom
  · rw [← keptEvents]
    exact eventsFrom

/-- **Where resolved signatures come from.** With resolving on, every function a run hands to
`build_output` is the analysis of a resolving selector, in discovery order, whose resolved
function holds what the analysis left or a candidate matched among those resolved for that
selector, and whose errors and events hold what the analysis left or candidates the lookups of
their keys answered with. -/
theorem decompile_resolvedFrom (c : Collaborators) (defaultVal : Bool) (selectors : List String)
    (emitted : List Function) (ran : decompile c defaultVal false selectors = .ok emitted) :
    List.Forall₂ (fun analysis resolved =>
        ResolvedFrom c (c.resolveFunctionSelectors selectors) analysis.1 analysis.2 resolved)
      (selectors.filterMap fun selector =>
        (resolvable c (c.resolveFunctionSelectors selectors) selector).map (selector, ·))
      emitted := by
  obtain ⟨pushed, rfl, related⟩ :=
    analyzeSelectors_rel (fun _ _ round => analyzeSelector_from round) selectors [] emitted ran
  simpa using related


/-- The resolving run on the `transfer` selector fills its resolved function from the lookup. -/
theorem decompile_resolvedFrom_transfer :
    decompile transferOnly true false ["a9059cbb"] = .ok [{ Function.initial "a9059cbb" 1 with
        resolvedFunction := some (signatureOf "transfer(address,uint256)") }] ∧
      List.Forall₂ (fun analysis resolved => ResolvedFrom transferOnly
          (transferOnly.resolveFunctionSelectors ["a9059cbb"]) analysis.1 analysis.2 resolved)
        (["a9059cbb"].filterMap fun selector =>
          (resolvable transferOnly (transferOnly.resolveFunctionSelectors ["a9059cbb"])
            selector).map (selector, ·))
        [{ Function.initial "a9059cbb" 1 with
          resolvedFunction := some (signatureOf "transfer(address,uint256)") }] :=
  have ran : decompile transferOnly true false ["a9059cbb"] =
      .ok [{ Function.initial "a9059cbb" 1 with
        resolvedFunction := some (signatureOf "transfer(address,uint256)") }] := rfl
  ⟨ran, decompile_resolvedFrom transferOnly true ["a9059cbb"] _ ran⟩

end Mau.Decompile
