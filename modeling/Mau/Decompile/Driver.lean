import Mau.Decompile.Select

/-! # The decompile driver

The per-selector loop of `decompile_with_bytecode`: the entry point is first converted to the
trace's `u32` by `try_into().unwrap()`, which panics from `2 ^ 32` on (`tryIntoU32`); a
selector whose entry point is `0` is then skipped as a false positive; otherwise its analysis
is pushed onto the list handed to `build_output`, after its signature, error and event lookups
when resolving is on. When resolving is on, a selector that does not resolve is skipped too
(`None => continue`). `decompile_with_bytecode` itself hard-codes resolving off and default
selection on.

With resolving off the run panics when some entry point does not fit (`EntryPointsFit`), and
otherwise the list is the analysis of every selector with a nonzero entry point, in discovery
order (`decompile_skipping`). With resolving on a run that reaches the list had every entry point
fit, and the list is as before for the selectors that resolve, each record changed only in its
resolved-signature slots (`decompile_resolving`); the run reaches the list whenever every entry
point fits, every lookup that answers offers a candidate and every event topic of the analyses
is at least 64 characters long (`analyzeSelectors_completes`); `decompile_emits` gathers the
three.
-/

namespace Mau.Decompile

/-- `Option::unwrap`, panicking on `None`. -/
def unwrap {α : Type} : Option α → Except DecompileExit α
  | some value => .ok value
  | none => .error .panic

/-- `str::get(0..n)`: the first `n` characters of a text that has as many; selectors and topics
are hexadecimal, where characters and bytes coincide. -/
def strPrefix (text : String) (n : Nat) : Option String :=
  if n ≤ text.length then some (text.take n) else none

/-- `u32::try_from` of an entry point, which `try_into` performs for the trace's `u32`
instruction parameter: the value when it is below `UInt32.size`. -/
def tryIntoU32 (value : Nat) : Option UInt32 :=
  if value < UInt32.size then some (UInt32.ofNat value) else none

section Loops

variable (c : Collaborators) (defaultVal : Bool)

/-- The loop over a copy of the function's errors: look each error selector up and store the
signature selected among the answers. -/
def resolveErrors :
    List (String × Option ResolvedSignature) → Function → Except DecompileExit Function
  | [], analyzedFunction => .ok analyzedFunction
  | (errorSelector, _) :: rest, analyzedFunction =>
    match c.resolveErrorSignature errorSelector with
    | some resolvedErrorSelectors =>
      (selectMatch c.option defaultVal resolvedErrorSelectors).bind fun selectedMatch =>
        resolveErrors rest { analyzedFunction with
          errors := analyzedFunction.errors.insert errorSelector (some selectedMatch) }
    | none => resolveErrors rest analyzedFunction

/-- The loop over a copy of the function's events: look each topic up, by the first 64
characters of its key, and store the signature selected with the raw event. -/
def resolveEvents :
    List (String × (Option ResolvedSignature × Log)) → Function → Except DecompileExit Function
  | [], analyzedFunction => .ok analyzedFunction
  | (eventSelector, (_, rawEvent)) :: rest, analyzedFunction =>
    (unwrap (strPrefix eventSelector 8)).bind fun _ =>
    (unwrap (strPrefix eventSelector 64)).bind fun topic =>
    match c.resolveEventSignature topic with
    | some resolvedEventSelectors =>
      (selectMatch c.option defaultVal resolvedEventSelectors).bind fun selectedMatch =>
        resolveEvents rest { analyzedFunction with
          events := analyzedFunction.events.insert eventSelector (some selectedMatch, rawEvent) }
    | none => resolveEvents rest analyzedFunction

/-- The function-signature block: `none` for the `continue` of a selector that did not
resolve; otherwise the function, with the selected match when the parameters matched any. -/
def resolveFunction (resolvedSelectors : HashMap String (List ResolvedSignature))
    (selector : String) (analyzedFunction : Function) : Except DecompileExit (Option Function) :=
  match resolvedSelectors.get selector with
  | none => .ok none
  | some resolvedFunctions =>
    let matchedResolvedFunctions := c.matchParameters resolvedFunctions analyzedFunction
    if matchedResolvedFunctions.length = 0 then .ok (some analyzedFunction)
    else (selectMatch c.option defaultVal matchedResolvedFunctions).map fun selectedMatch =>
      some { analyzedFunction with resolvedFunction := some selectedMatch }

/-- One round of the loop over selectors: the function to push, or `none` for a `continue`.
The entry point is converted to the trace's `u32` by `try_into().unwrap()` before the check for
`0`; the second such conversion, for the trace's debug line, is of the same value. -/
def analyzeSelector (skipResolving : Bool)
    (resolvedSelectors : HashMap String (List ResolvedSignature)) (selector : String) :
    Except DecompileExit (Option Function) :=
  let functionEntryPoint := c.resolveEntryPoint selector
  (unwrap (tryIntoU32 functionEntryPoint)).bind fun _ =>
  if functionEntryPoint = 0 then .ok none
  else
    let analyzedFunction :=
      c.analyze selector functionEntryPoint (Function.initial selector functionEntryPoint)
    if skipResolving then .ok (some analyzedFunction)
    else (resolveFunction c defaultVal resolvedSelectors selector analyzedFunction).bind fun
      | none => .ok none
      | some analyzedFunction =>
        (resolveErrors c defaultVal analyzedFunction.errors.entries analyzedFunction).bind
          fun analyzedFunction =>
            (resolveEvents c defaultVal analyzedFunction.events.entries analyzedFunction).map some

/-- The loop over selectors, pushing onto `analyzed_functions`. -/
def analyzeSelectors (skipResolving : Bool)
    (resolvedSelectors : HashMap String (List ResolvedSignature)) :
    List Function → List String → Except DecompileExit (List Function)
  | analyzedFunctions, [] => .ok analyzedFunctions
  | analyzedFunctions, selector :: rest =>
    (analyzeSelector c defaultVal skipResolving resolvedSelectors selector).bind fun
      | some analyzedFunction =>
        analyzeSelectors skipResolving resolvedSelectors (analyzedFunctions ++ [analyzedFunction])
          rest
      | none => analyzeSelectors skipResolving resolvedSelectors analyzedFunctions rest

/-- The body of `decompile_with_bytecode` from the discovered selectors to the list handed to
`build_output`, for either value of its `skip_resolving` and `default_val`. -/
def decompile (skipResolving : Bool) (selectors : List String) :
    Except DecompileExit (List Function) :=
  let resolvedSelectors :=
    if skipResolving then HashMap.empty else c.resolveFunctionSelectors selectors
  analyzeSelectors c defaultVal skipResolving resolvedSelectors [] selectors

end Loops

/-- The analysis of a selector with a nonzero entry point. -/
def analyzed (c : Collaborators) (selector : String) : Option Function :=
  let entryPoint := c.resolveEntryPoint selector
  if entryPoint = 0 then none
  else some (c.analyze selector entryPoint (Function.initial selector entryPoint))

/-- Every selector's entry point fits the trace's `u32`, so that no `try_into().unwrap()`
panics. -/
def EntryPointsFit (c : Collaborators) (selectors : List String) : Prop :=
  ∀ selector ∈ selectors, c.resolveEntryPoint selector < UInt32.size

instance (c : Collaborators) (selectors : List String) : Decidable (EntryPointsFit c selectors) :=
  inferInstanceAs
    (Decidable (∀ selector ∈ selectors, c.resolveEntryPoint selector < UInt32.size))

section Proofs

variable {c : Collaborators} {defaultVal : Bool}

theorem bind_eq_ok {α β : Type} {x : Except DecompileExit α} {f : α → Except DecompileExit β}
    {result : β} : x.bind f = .ok result ↔ ∃ value, x = .ok value ∧ f value = .ok result := by
  cases x <;> simp [Except.bind]

theorem map_eq_ok {α β : Type} {x : Except DecompileExit α} {f : α → β} {result : β} :
    x.map f = .ok result ↔ ∃ value, x = .ok value ∧ f value = result := by
  cases x <;> simp [Except.map]

theorem unwrap_tryIntoU32_bind {α : Type} {value : Nat} {f : UInt32 → Except DecompileExit α} :
    (unwrap (tryIntoU32 value)).bind f =
      if value < UInt32.size then f (UInt32.ofNat value) else .error .panic := by
  unfold tryIntoU32
  split <;> rfl

theorem entryPointsFit_cons {selector : String} {rest : List String} :
    EntryPointsFit c (selector :: rest) ↔
      c.resolveEntryPoint selector < UInt32.size ∧ EntryPointsFit c rest :=
  List.forall_mem_cons

/-- A round that returns converted its entry point. -/
theorem analyzeSelector_fits {skipResolving : Bool}
    {resolvedSelectors : HashMap String (List ResolvedSignature)} {selector : String}
    {result : Option Function}
    (ran : analyzeSelector c defaultVal skipResolving resolvedSelectors selector = .ok result) :
    c.resolveEntryPoint selector < UInt32.size := by
  simp only [analyzeSelector, unwrap_tryIntoU32_bind] at ran
  by_contra wide
  rw [if_neg wide] at ran
  cases ran

/-- A run of the loop that returns converted every entry point. -/
theorem analyzeSelectors_fits {skipResolving : Bool}
    {resolvedSelectors : HashMap String (List ResolvedSignature)} :
    ∀ (selectors : List String) (analyzedFunctions emitted : List Function),
      analyzeSelectors c defaultVal skipResolving resolvedSelectors analyzedFunctions selectors =
        .ok emitted → EntryPointsFit c selectors
  | [], _, _, _ => fun _ member => (nomatch member)
  | selector :: rest, _, emitted, ran => by
    unfold analyzeSelectors at ran
    obtain ⟨result, round, ran⟩ := bind_eq_ok.mp ran
    refine entryPointsFit_cons.mpr ⟨analyzeSelector_fits round, ?_⟩
    cases result <;> exact analyzeSelectors_fits rest _ emitted ran

theorem analyzeSelector_skipping (resolvedSelectors : HashMap String (List ResolvedSignature))
    (selector : String) :
    analyzeSelector c defaultVal true resolvedSelectors selector =
      if c.resolveEntryPoint selector < UInt32.size then .ok (analyzed c selector)
      else .error .panic := by
  simp only [analyzeSelector, unwrap_tryIntoU32_bind]
  split
  · by_cases falsePositive : c.resolveEntryPoint selector = 0 <;> simp [analyzed, falsePositive]
  · rfl

theorem analyzeSelectors_skipping (resolvedSelectors : HashMap String (List ResolvedSignature)) :
    ∀ (selectors : List String) (analyzedFunctions : List Function),
      analyzeSelectors c defaultVal true resolvedSelectors analyzedFunctions selectors =
        if EntryPointsFit c selectors then
          .ok (analyzedFunctions ++ selectors.filterMap (analyzed c))
        else .error .panic
  | [], analyzedFunctions => by simp [analyzeSelectors, EntryPointsFit]
  | selector :: rest, analyzedFunctions => by
    rw [analyzeSelectors, analyzeSelector_skipping]
    by_cases fits : c.resolveEntryPoint selector < UInt32.size
    · simp only [entryPointsFit_cons, fits, true_and, ↓reduceIte]
      cases emitted : analyzed c selector <;>
        simp [Except.bind, emitted, analyzeSelectors_skipping resolvedSelectors rest]
    · simp only [entryPointsFit_cons, fits, false_and, ↓reduceIte]
      rfl

/-- **Resolving skipped.** The run exits by a panic when some selector's entry point does not
fit the trace's `u32`; otherwise the list handed to `build_output` is the analysis of each
selector with a nonzero entry point, one per occurrence, in discovery order. -/
theorem decompile_skipping (selectors : List String) :
    decompile c defaultVal true selectors =
      if EntryPointsFit c selectors then .ok (selectors.filterMap (analyzed c))
      else .error .panic := by
  simp [decompile, analyzeSelectors_skipping]

/-- An event entry seen without its resolved signature: the key and the raw event. -/
def eventView (entry : String × (Option ResolvedSignature × Log)) : String × Log :=
  (entry.1, entry.2.2)

/-- Signature resolution filled in only the resolved-signature slots: `resolved` is `analyzed`
with its resolved function, errors and events replaced, the errors under the same keys, the
events under the same keys with the same raw events. -/
def ResolvesOnly (analyzed resolved : Function) : Prop :=
  resolved = { analyzed with
    resolvedFunction := resolved.resolvedFunction, errors := resolved.errors,
    events := resolved.events } ∧
  resolved.errors.keys = analyzed.errors.keys ∧
  resolved.events.entries.map eventView = analyzed.events.entries.map eventView

theorem ResolvesOnly.refl (analyzed : Function) : ResolvesOnly analyzed analyzed :=
  ⟨rfl, rfl, rfl⟩

theorem ResolvesOnly.trans {first second third : Function} (early : ResolvesOnly first second)
    (late : ResolvesOnly second third) : ResolvesOnly first third := by
  obtain ⟨secondIs, errorKeys, eventViews⟩ := early
  obtain ⟨thirdIs, errorKeys', eventViews'⟩ := late
  refine ⟨?_, errorKeys'.trans errorKeys, eventViews'.trans eventViews⟩
  conv_lhs => rw [thirdIs]
  rw [secondIs]

theorem resolveFunction_ok {resolvedSelectors : HashMap String (List ResolvedSignature)}
    {selector : String} {analyzedFunction : Function} {result : Option Function}
    (ran : resolveFunction c defaultVal resolvedSelectors selector analyzedFunction = .ok result) :
    resolvedSelectors.get selector = none ∧ result = none ∨
      (resolvedSelectors.get selector).isSome ∧
        ∃ resolved, result = some resolved ∧ ResolvesOnly analyzedFunction resolved := by
  unfold resolveFunction at ran
  split at ran
  · cases ran
    exact Or.inl ⟨‹_›, rfl⟩
  rename_i present
  refine Or.inr ⟨by simp [present], ?_⟩
  dsimp only at ran
  split at ran
  · cases ran
    exact ⟨_, rfl, ResolvesOnly.refl _⟩
  · obtain ⟨_, _, rfl⟩ := map_eq_ok.mp ran
    exact ⟨_, rfl, rfl, rfl, rfl⟩

theorem resolveErrors_resolvesOnly :
    ∀ (entries : List (String × Option ResolvedSignature)) (analyzedFunction resolved : Function),
      (∀ key ∈ entries.map Prod.fst, key ∈ analyzedFunction.errors.keys) →
      resolveErrors c defaultVal entries analyzedFunction = .ok resolved →
      ResolvesOnly analyzedFunction resolved
  | [], _, _, _, ran => by cases ran; exact ResolvesOnly.refl _
  | (errorSelector, _) :: rest, analyzedFunction, resolved, present, ran => by
    have here : errorSelector ∈ analyzedFunction.errors.keys := present _ (List.mem_cons_self _ _)
    have later : ∀ key ∈ rest.map Prod.fst, key ∈ analyzedFunction.errors.keys :=
      fun key member => present key (List.mem_cons_of_mem _ member)
    unfold resolveErrors at ran
    split at ran
    · obtain ⟨selected, _, ran⟩ := bind_eq_ok.mp ran
      have kept := HashMap.keys_insert_of_mem here (some selected)
      refine ResolvesOnly.trans ?_ (resolveErrors_resolvesOnly rest _ resolved ?_ ran)
      · exact ⟨rfl, kept, rfl⟩
      · simpa only [kept] using later
    · exact resolveErrors_resolvesOnly rest analyzedFunction resolved later ran

/-- Storing a resolved signature with the raw event found under the same key changes no event
view. -/
theorem eventViews_insert {events : HashMap String (Option ResolvedSignature × Log)}
    {eventSelector : String} {rawEvent : Log} (present : (eventSelector, rawEvent) ∈
      events.entries.map eventView) (selected : Option ResolvedSignature) :
    (events.insert eventSelector (selected, rawEvent)).entries.map eventView =
      events.entries.map eventView := by
  obtain ⟨found, foundMember, foundView⟩ := List.mem_map.mp present
  have key : eventSelector ∈ events.keys :=
    List.mem_map.mpr ⟨found, foundMember, congrArg Prod.fst foundView⟩
  rw [HashMap.entries_insert_of_mem key]
  refine HashMap.map_overwrite _ _ _ _ fun entry member same => ?_
  have sameEntry : found = entry := List.inj_on_of_nodup_map events.nodup_keys foundMember
    member ((congrArg Prod.fst foundView).trans same.symm)
  rw [← sameEntry, foundView]
  rfl

theorem resolveEvents_resolvesOnly :
    ∀ (entries : List (String × (Option ResolvedSignature × Log)))
      (analyzedFunction resolved : Function),
      (∀ entry ∈ entries, eventView entry ∈ analyzedFunction.events.entries.map eventView) →
      resolveEvents c defaultVal entries analyzedFunction = .ok resolved →
      ResolvesOnly analyzedFunction resolved
  | [], _, _, _, ran => by cases ran; exact ResolvesOnly.refl _
  | (eventSelector, (_, rawEvent)) :: rest, analyzedFunction, resolved, present, ran => by
    have later : ∀ entry ∈ rest, eventView entry ∈ analyzedFunction.events.entries.map eventView :=
      fun entry member => present entry (List.mem_cons_of_mem _ member)
    have here : (eventSelector, rawEvent) ∈ analyzedFunction.events.entries.map eventView :=
      present _ (List.mem_cons_self _ _)
    unfold resolveEvents at ran
    obtain ⟨_, _, ran⟩ := bind_eq_ok.mp ran
    obtain ⟨_, _, ran⟩ := bind_eq_ok.mp ran
    split at ran
    · obtain ⟨selected, _, ran⟩ := bind_eq_ok.mp ran
      have kept := eventViews_insert here (some selected)
      refine ResolvesOnly.trans ?_ (resolveEvents_resolvesOnly rest _ resolved ?_ ran)
      · exact ⟨rfl, rfl, kept⟩
      · simpa only [kept] using later
    · exact resolveEvents_resolvesOnly rest analyzedFunction resolved later ran

/-- The analysis of a selector that resolves, with its nonzero entry point. -/
def resolvable (c : Collaborators) (resolvedSelectors : HashMap String (List ResolvedSignature))
    (selector : String) : Option Function :=
  if (resolvedSelectors.get selector).isSome then analyzed c selector else none

/-- **One resolving round.** A selector is skipped when its entry point is `0` or it does not
resolve; otherwise its analysis goes through the function-signature block, the error loop and
the event loop, and the result is pushed. -/
theorem analyzeSelector_resolving_cases
    {resolvedSelectors : HashMap String (List ResolvedSignature)} {selector : String}
    {result : Option Function}
    (ran : analyzeSelector c defaultVal false resolvedSelectors selector = .ok result) :
    result = none ∧ resolvable c resolvedSelectors selector = none ∨
      ∃ analyzedFunction signed withErrors resolved,
        resolvable c resolvedSelectors selector = some analyzedFunction ∧
        resolveFunction c defaultVal resolvedSelectors selector analyzedFunction =
          .ok (some signed) ∧
        resolveErrors c defaultVal signed.errors.entries signed = .ok withErrors ∧
        resolveEvents c defaultVal withErrors.events.entries withErrors = .ok resolved ∧
        result = some resolved := by
  have fits := analyzeSelector_fits ran
  simp only [analyzeSelector, unwrap_tryIntoU32_bind, fits, ↓reduceIte] at ran
  by_cases falsePositive : c.resolveEntryPoint selector = 0
  · simp only [falsePositive, ↓reduceIte, Except.ok.injEq] at ran
    exact Or.inl ⟨ran.symm, by simp [resolvable, analyzed, falsePositive]⟩
  simp only [falsePositive, Bool.false_eq_true, ↓reduceIte] at ran
  obtain ⟨_, resolving, ran⟩ := bind_eq_ok.mp ran
  rcases resolveFunction_ok resolving with ⟨absent, rfl⟩ | ⟨present, signed, rfl, -⟩
  · cases ran
    exact Or.inl ⟨rfl, by simp [resolvable, absent]⟩
  obtain ⟨withErrors, errors, ran⟩ := bind_eq_ok.mp ran
  obtain ⟨resolved, events, rfl⟩ := map_eq_ok.mp ran
  exact Or.inr ⟨_, signed, withErrors, resolved,
    by simp [resolvable, analyzed, present, falsePositive], resolving, errors, events, rfl⟩

theorem analyzeSelector_resolving {resolvedSelectors : HashMap String (List ResolvedSignature)}
    {selector : String} {result : Option Function}
    (ran : analyzeSelector c defaultVal false resolvedSelectors selector = .ok result) :
    Option.Rel ResolvesOnly (resolvable c resolvedSelectors selector) result := by
  rcases analyzeSelector_resolving_cases ran with ⟨rfl, expected⟩ |
    ⟨analyzedFunction, signed, withErrors, resolved, expected, resolving, errors, events, rfl⟩
  · rw [expected]
    exact .none
  have signedOnly : ResolvesOnly analyzedFunction signed := by
    rcases resolveFunction_ok resolving with ⟨_, absent⟩ | ⟨_, _, same, signedOnly⟩
    · cases absent
    · cases same
      exact signedOnly
  rw [expected]
  exact .some (signedOnly.trans ((resolveErrors_resolvesOnly _ _ _ (fun _ member => member)
    errors).trans (resolveEvents_resolvesOnly _ _ _ (fun _ member => List.mem_map_of_mem _ member)
    events)))

/-- The loop over selectors relates, in order, each selector that resolves, with its analysis,
to the function it pushes, by any relation that every resolving round establishes. -/
theorem analyzeSelectors_rel {R : String → Function → Function → Prop}
    {resolvedSelectors : HashMap String (List ResolvedSignature)}
    (round : ∀ selector result,
      analyzeSelector c defaultVal false resolvedSelectors selector = .ok result →
        Option.Rel (R selector) (resolvable c resolvedSelectors selector) result) :
    ∀ (selectors : List String) (analyzedFunctions emitted : List Function),
      analyzeSelectors c defaultVal false resolvedSelectors analyzedFunctions selectors =
        .ok emitted →
      ∃ pushed, emitted = analyzedFunctions ++ pushed ∧
        List.Forall₂ (fun analysis resolved => R analysis.1 analysis.2 resolved)
          (selectors.filterMap fun selector =>
            (resolvable c resolvedSelectors selector).map (selector, ·)) pushed
  | [], analyzedFunctions, emitted, ran => by
    cases ran
    exact ⟨[], by simp, List.Forall₂.nil⟩
  | selector :: rest, analyzedFunctions, emitted, ran => by
    unfold analyzeSelectors at ran
    obtain ⟨result, roundRan, ran⟩ := bind_eq_ok.mp ran
    have relation := round selector result roundRan
    rw [List.filterMap_cons]
    generalize resolvable c resolvedSelectors selector = expected at relation ⊢
    cases relation with
    | none => exact analyzeSelectors_rel round rest _ _ ran
    | some related =>
      obtain ⟨pushed, rfl, later⟩ := analyzeSelectors_rel round rest _ _ ran
      exact ⟨_ :: pushed, by simp, .cons related later⟩

/-- A relation that does not look at the selector relates the analyses themselves. -/
theorem forall₂_resolvable {R : Function → Function → Prop}
    {resolvedSelectors : HashMap String (List ResolvedSignature)} {selectors : List String}
    {pushed : List Function} :
    List.Forall₂ (fun analysis resolved => R analysis.2 resolved)
        (selectors.filterMap fun selector =>
          (resolvable c resolvedSelectors selector).map (selector, ·)) pushed ↔
      List.Forall₂ R (selectors.filterMap (resolvable c resolvedSelectors)) pushed := by
  rw [← List.forall₂_map_left_iff, List.map_filterMap]
  simp only [Option.map_map, Function.comp_def, Option.map_id']

/-- **Resolving on.** When the run reaches `build_output`, every entry point fitted the trace's
`u32`, and the list handed to it holds one function per occurrence of a selector with a nonzero
entry point that resolves, in discovery order, each the selector's analysis changed only in its
resolved-signature slots. -/
theorem decompile_resolving {selectors : List String} {emitted : List Function}
    (ran : decompile c defaultVal false selectors = .ok emitted) :
    EntryPointsFit c selectors ∧ List.Forall₂ ResolvesOnly
      (selectors.filterMap (resolvable c (c.resolveFunctionSelectors selectors))) emitted := by
  refine ⟨analyzeSelectors_fits selectors [] emitted ran, ?_⟩
  obtain ⟨pushed, rfl, related⟩ :=
    @analyzeSelectors_rel c defaultVal (fun _ => ResolvesOnly) _
      (fun _ _ round => analyzeSelector_resolving round) selectors [] emitted ran
  simpa using forall₂_resolvable.mp related

/-- What lets a resolving run reach `build_output`: the prompt answers its default, every lookup
that answers offers a candidate, and every event key an analysis records has at least 64
characters. -/
structure Completes (c : Collaborators) : Prop where
  defaults : AnswersDefault c.option
  errorsOffer : ∀ selector candidates, c.resolveErrorSignature selector = some candidates →
    candidates ≠ []
  eventsOffer : ∀ topic candidates, c.resolveEventSignature topic = some candidates →
    candidates ≠ []
  topicsLong : ∀ selector entryPoint analyzedFunction,
    ∀ key ∈ (c.analyze selector entryPoint analyzedFunction).events.keys, 64 ≤ key.length

theorem ResolvesOnly.events_keys {analyzed resolved : Function}
    (resolvesOnly : ResolvesOnly analyzed resolved) :
    resolved.events.keys = analyzed.events.keys := by
  have views := congrArg (List.map Prod.fst) resolvesOnly.2.2
  simpa only [List.map_map] using views

variable (completes : Completes c)
include completes

theorem selectMatch_ok {candidates : List ResolvedSignature} (nonempty : candidates ≠ []) :
    ∃ selected, selectMatch c.option true candidates = .ok selected :=
  (selectMatch_default completes.defaults nonempty).imp fun _ => And.left

theorem resolveFunction_completes (resolvedSelectors : HashMap String (List ResolvedSignature))
    (selector : String) (analyzedFunction : Function) :
    ∃ result, resolveFunction c true resolvedSelectors selector analyzedFunction = .ok result := by
  unfold resolveFunction
  split
  · exact ⟨_, rfl⟩
  dsimp only
  split
  · exact ⟨_, rfl⟩
  rename_i resolvedFunctions _ nonzero
  have nonempty : c.matchParameters resolvedFunctions analyzedFunction ≠ [] :=
    List.ne_nil_of_length_pos (Nat.pos_of_ne_zero nonzero)
  obtain ⟨selected, chosen⟩ := selectMatch_ok completes nonempty
  exact ⟨_, by rw [chosen]; rfl⟩

theorem resolveErrors_completes : ∀ (entries : List (String × Option ResolvedSignature))
    (analyzedFunction : Function),
    ∃ resolved, resolveErrors c true entries analyzedFunction = .ok resolved
  | [], _ => ⟨_, rfl⟩
  | (errorSelector, _) :: rest, analyzedFunction => by
    unfold resolveErrors
    split
    · rename_i candidates offered
      obtain ⟨selected, chosen⟩ :=
        selectMatch_ok completes (completes.errorsOffer errorSelector candidates offered)
      rw [chosen]
      exact resolveErrors_completes rest _
    · exact resolveErrors_completes rest analyzedFunction

theorem resolveEvents_completes : ∀ (entries : List (String × (Option ResolvedSignature × Log)))
    (analyzedFunction : Function), (∀ entry ∈ entries, 64 ≤ entry.1.length) →
    ∃ resolved, resolveEvents c true entries analyzedFunction = .ok resolved
  | [], _, _ => ⟨_, rfl⟩
  | (eventSelector, (_, rawEvent)) :: rest, analyzedFunction, long => by
    have here : 64 ≤ eventSelector.length := long _ (List.mem_cons_self _ _)
    have later : ∀ entry ∈ rest, 64 ≤ entry.1.length :=
      fun entry member => long entry (List.mem_cons_of_mem _ member)
    unfold resolveEvents
    simp only [strPrefix, show 8 ≤ eventSelector.length by omega, here, ↓reduceIte, unwrap,
      Except.bind]
    split
    · rename_i candidates offered
      obtain ⟨selected, chosen⟩ :=
        selectMatch_ok completes (completes.eventsOffer _ candidates offered)
      rw [chosen]
      exact resolveEvents_completes rest _ later
    · exact resolveEvents_completes rest analyzedFunction later

theorem analyzeSelector_completes (resolvedSelectors : HashMap String (List ResolvedSignature))
    {selector : String} (fits : c.resolveEntryPoint selector < UInt32.size) :
    ∃ result, analyzeSelector c true false resolvedSelectors selector = .ok result := by
  simp only [analyzeSelector, unwrap_tryIntoU32_bind, fits, ↓reduceIte]
  split
  · exact ⟨_, rfl⟩
  simp only [Bool.false_eq_true, ↓reduceIte]
  obtain ⟨signedResult, resolving⟩ := resolveFunction_completes completes resolvedSelectors selector
    (c.analyze selector (c.resolveEntryPoint selector)
      (Function.initial selector (c.resolveEntryPoint selector)))
  rw [resolving]
  rcases resolveFunction_ok resolving with ⟨_, rfl⟩ | ⟨_, signed, rfl, signedOnly⟩
  · exact ⟨_, rfl⟩
  obtain ⟨withErrors, errors⟩ := resolveErrors_completes completes signed.errors.entries signed
  have withErrorsOnly := resolveErrors_resolvesOnly _ _ _ (fun _ member => member) errors
  have long : ∀ entry ∈ withErrors.events.entries, 64 ≤ entry.1.length := fun entry member => by
    refine completes.topicsLong selector (c.resolveEntryPoint selector)
      (Function.initial selector (c.resolveEntryPoint selector)) entry.1 ?_
    rw [← signedOnly.events_keys, ← withErrorsOnly.events_keys]
    exact List.mem_map_of_mem _ member
  obtain ⟨withEvents, events⟩ :=
    resolveEvents_completes completes withErrors.events.entries withErrors long
  exact ⟨some withEvents, by simp only [Except.bind, errors, events]; rfl⟩

theorem analyzeSelectors_completes (resolvedSelectors : HashMap String (List ResolvedSignature)) :
    ∀ (selectors : List String) (analyzedFunctions : List Function), EntryPointsFit c selectors →
      ∃ emitted,
        analyzeSelectors c true false resolvedSelectors analyzedFunctions selectors = .ok emitted
  | [], _, _ => ⟨_, rfl⟩
  | selector :: rest, analyzedFunctions, fits => by
    obtain ⟨here, later⟩ := entryPointsFit_cons.mp fits
    obtain ⟨result, round⟩ := analyzeSelector_completes completes resolvedSelectors here
    unfold analyzeSelectors
    rw [round]
    cases result
    · exact analyzeSelectors_completes resolvedSelectors rest analyzedFunctions later
    · exact analyzeSelectors_completes resolvedSelectors rest _ later

end Proofs

/-- **The functions handed to `build_output`.** With resolving skipped, as in
`decompile_with_bytecode`, the run panics when some entry point does not fit the trace's `u32`,
and otherwise hands `build_output` the analyses of the selectors with a nonzero entry point, one
per occurrence, in discovery order. With resolving on, a run that reaches `build_output` had
every entry point fit, and hands it the same for the selectors that resolve, each changed only
in its resolved-signature slots; and the run reaches it when every entry point fits, the prompt
answers its default, every lookup that answers offers a candidate and every event key has 64
characters. -/
theorem decompile_emits (c : Collaborators) (defaultVal : Bool) (selectors : List String) :
    decompile c defaultVal true selectors =
      (if EntryPointsFit c selectors then .ok (selectors.filterMap (analyzed c))
        else .error .panic) ∧
    (∀ emitted, decompile c defaultVal false selectors = .ok emitted →
      EntryPointsFit c selectors ∧ List.Forall₂ ResolvesOnly
        (selectors.filterMap (resolvable c (c.resolveFunctionSelectors selectors))) emitted) ∧
    (Completes c → EntryPointsFit c selectors →
      ∃ emitted, decompile c true false selectors = .ok emitted) :=
  ⟨decompile_skipping selectors, fun _ ran => decompile_resolving ran,
    fun completes fits => analyzeSelectors_completes completes _ selectors [] fits⟩

/-- Collaborators that find the selector of `transfer(address,uint256)`, resolve it to that
signature alone, and record no error and no event. -/
def transferOnly : Collaborators where
  findFunctionSelectors _ := ["a9059cbb"]
  resolveEntryPoint _ := 1
  analyze selector entryPoint _ := Function.initial selector entryPoint
  resolveFunctionSelectors _ :=
    ⟨[("a9059cbb", [signatureOf "transfer(address,uint256)"])], by decide⟩
  matchParameters candidates _ := candidates
  resolveErrorSignature _ := none
  resolveEventSignature _ := none
  option _ default _ := default.getD 0

/-- The resolving run on the `transfer` selector reaches `build_output` with the function
resolved to `transfer(address,uint256)`. -/
theorem decompile_emits_transfer :
    Completes transferOnly ∧
      decompile transferOnly true false ["a9059cbb"] = .ok [{ Function.initial "a9059cbb" 1 with
        resolvedFunction := some (signatureOf "transfer(address,uint256)") }] ∧
      EntryPointsFit transferOnly ["a9059cbb"] ∧
      List.Forall₂ ResolvesOnly
        (["a9059cbb"].filterMap
          (resolvable transferOnly (transferOnly.resolveFunctionSelectors ["a9059cbb"])))
        [{ Function.initial "a9059cbb" 1 with
          resolvedFunction := some (signatureOf "transfer(address,uint256)") }] ∧
      ∃ emitted, decompile transferOnly true false ["a9059cbb"] = .ok emitted :=
  have completes : Completes transferOnly :=
    ⟨fun _ _ => rfl, fun _ _ absent => (nomatch absent), fun _ _ absent => (nomatch absent),
      fun _ _ _ _ member => (nomatch member)⟩
  have fits : EntryPointsFit transferOnly ["a9059cbb"] := by decide
  have ran : decompile transferOnly true false ["a9059cbb"] =
      .ok [{ Function.initial "a9059cbb" 1 with
        resolvedFunction := some (signatureOf "transfer(address,uint256)") }] := rfl
  ⟨completes, ran, fits, ((decompile_emits transferOnly true ["a9059cbb"]).2.1 _ ran).2,
    (decompile_emits transferOnly true ["a9059cbb"]).2.2 completes fits⟩

/-- The `transfer` collaborators with a signature lookup that resolves nothing. -/
def unresolvedOnly : Collaborators :=
  { transferOnly with resolveFunctionSelectors := fun _ => HashMap.empty }

/-- With resolving on, a selector with a nonzero entry point that does not resolve is not
handed to `build_output`. -/
theorem decompile_drops_unresolved :
    ¬ ∀ (c : Collaborators) (skipResolving : Bool) (selectors : List String)
      (emitted : List Function), decompile c true skipResolving selectors = .ok emitted →
        List.Forall₂ ResolvesOnly (selectors.filterMap (analyzed c)) emitted := by
  intro emitsAll
  have ran : decompile unresolvedOnly true false ["a9059cbb"] = .ok [] := rfl
  have related := emitsAll unresolvedOnly false ["a9059cbb"] [] ran
  cases related

end Mau.Decompile
