import Mau.Decompile.Provenance

/-! # The resolving run as a map over the analyses

With default selection on, the loops of a resolving round compute a declarative result
(`resolvedSpec`): the function block sets the resolved function to the default pick among the
matched candidates, when any matches; then every error and every event slot is mapped on its
own, to the default pick of its lookup, or left as analysis wrote it when the lookup has no
answer. The default pick is the candidate at `(len - 1) % 256` (`defaultPick`).

The error and event loops iterate a copy of their map and overwrite one key per round. With
the prompt answering its default, a loop exits with "invalid selection" exactly when a lookup it
visits answers an empty list (`resolveErrors_exits`, `resolveEvents_exits`); otherwise, after any
set of rounds, its map is the original with exactly the visited keys updated
(`resolveErrors_updateOn`, `resolveEvents_updateOn`). Visiting the entries in any order thus
gives the same outcome (`resolveErrors_perm`, `resolveEvents_perm`): the result does not depend
on the iteration order `HashMap` leaves unspecified (`resolveLoops_perm`). The whole run is the
map of `resolvedSpec` over the selectors (`decompile_eq_spec`) when every entry point fits the
trace's `u32` and under the assumptions of `Completes`. Of those assumptions the one on event
keys is also necessary: a run that reaches `build_output` sliced every event key of every
selector that resolves to 64 characters (`decompile_topics_long`).
-/

namespace Mau.Decompile

/-- The candidate the prompt's default selects: the one at `(len - 1) as u8`. -/
def defaultPick (candidates : List ResolvedSignature) : Option ResolvedSignature :=
  candidates[(candidates.length - 1) % 256]?

/-- An error slot after resolution: the default pick of its key's lookup, or the slot as it was
when the lookup has no answer. -/
def errorUpdate (c : Collaborators) (key : String) (slot : Option ResolvedSignature) :
    Option ResolvedSignature :=
  match c.resolveErrorSignature key with
  | some candidates => defaultPick candidates
  | none => slot

/-- An event slot after resolution: the default pick of its key's lookup with the raw event
kept, or the slot as it was when the lookup has no answer. -/
def eventUpdate (c : Collaborators) (key : String) (slot : Option ResolvedSignature × Log) :
    Option ResolvedSignature × Log :=
  match eventLookup c key with
  | some candidates => (defaultPick candidates, slot.2)
  | none => slot

/-- The function-signature block, read declaratively: the analysis with its resolved function set
to the default pick of the matched candidates, when any matches. -/
def signedSpec (c : Collaborators) (candidates : List ResolvedSignature)
    (analyzedFunction : Function) : Function :=
  let matched := c.matchParameters candidates analyzedFunction
  if matched.length = 0 then analyzedFunction
  else { analyzedFunction with resolvedFunction := defaultPick matched }

/-- **The resolving round, read declaratively.** Nothing for a selector that does not resolve;
otherwise the signed analysis with its errors and events mapped slot by slot. -/
def resolvedSpec (c : Collaborators) (resolvedSelectors : HashMap String (List ResolvedSignature))
    (selector : String) (analyzedFunction : Function) : Option Function :=
  (resolvedSelectors.get selector).map fun candidates =>
    let signed := signedSpec c candidates analyzedFunction
    { signed with
      errors := signed.errors.mapValues (errorUpdate c)
      events := signed.events.mapValues (eventUpdate c) }

@[simp]
theorem signedSpec_events (c : Collaborators) (candidates : List ResolvedSignature)
    (analyzedFunction : Function) :
    (signedSpec c candidates analyzedFunction).events = analyzedFunction.events := by
  unfold signedSpec
  dsimp only
  split <;> rfl

/-- A key of at least 64 characters is looked up by its first 64. -/
theorem eventLookup_of_long {c : Collaborators} {key : String} (long : 64 ≤ key.length) :
    eventLookup c key = c.resolveEventSignature (key.take 64) := by
  rw [eventLookup, strPrefix, if_pos long, Option.some_bind]

/-- A round of the event loop on a key of at least 64 characters: both prefixes exist, and the
lookup is the key's event lookup. -/
theorem resolveEvents_cons_of_long {c : Collaborators} {defaultVal : Bool} {eventSelector : String}
    {slot : Option ResolvedSignature} {rawEvent : Log}
    {rest : List (String × (Option ResolvedSignature × Log))} {analyzedFunction : Function}
    (long : 64 ≤ eventSelector.length) :
    resolveEvents c defaultVal ((eventSelector, (slot, rawEvent)) :: rest) analyzedFunction =
      match eventLookup c eventSelector with
      | some candidates =>
        (selectMatch c.option defaultVal candidates).bind fun selectedMatch =>
          resolveEvents c defaultVal rest { analyzedFunction with
            events := analyzedFunction.events.insert eventSelector (some selectedMatch, rawEvent) }
      | none => resolveEvents c defaultVal rest analyzedFunction := by
  have short : strPrefix eventSelector 8 = some (eventSelector.take 8) := if_pos (by omega)
  have sliced : strPrefix eventSelector 64 = some (eventSelector.take 64) := if_pos long
  rw [resolveEvents, short, sliced, eventLookup_of_long long]
  rfl

section Defaults

variable {c : Collaborators} (defaults : AnswersDefault c.option)
include defaults

/-- With default selection on, the selection takes the default pick. -/
theorem selectMatch_defaultPick {candidates : List ResolvedSignature}
    (nonempty : candidates ≠ []) :
    ∃ selected, selectMatch c.option true candidates = .ok selected ∧
      defaultPick candidates = some selected :=
  selectMatch_default defaults nonempty

/-- After the error loop has visited some entries, each key once and none whose lookup answers
an empty list, the errors are the original ones with exactly the visited keys updated. -/
theorem resolveErrors_updateOn :
    ∀ (visit : List (String × Option ResolvedSignature)) (analyzedFunction : Function),
      (visit.map Prod.fst).Nodup →
      (∀ entry ∈ visit, entry.1 ∈ analyzedFunction.errors.keys) →
      (∀ entry ∈ visit, c.resolveErrorSignature entry.1 ≠ some []) →
      ∃ resolved, resolveErrors c true visit analyzedFunction = .ok resolved ∧
        resolved = { analyzedFunction with errors := resolved.errors } ∧
        resolved.errors.entries = HashMap.updateOn (visit.map Prod.fst) (errorUpdate c)
          analyzedFunction.errors.entries
  | [], analyzedFunction, _, _, _ => ⟨analyzedFunction, rfl, rfl, HashMap.updateOn_nil.symm⟩
  | (errorSelector, slot) :: rest, analyzedFunction, nodup, present, offered => by
    rw [List.map_cons, List.nodup_cons] at nodup
    have here : errorSelector ∈ analyzedFunction.errors.keys := present _ (List.mem_cons_self _ _)
    have later : ∀ entry ∈ rest, entry.1 ∈ analyzedFunction.errors.keys :=
      fun entry member => present entry (List.mem_cons_of_mem _ member)
    have laterOffered : ∀ entry ∈ rest, c.resolveErrorSignature entry.1 ≠ some [] :=
      fun entry member => offered entry (List.mem_cons_of_mem _ member)
    unfold resolveErrors
    split
    · rename_i candidates found
      obtain ⟨selected, chosen, pick⟩ := selectMatch_defaultPick defaults
        fun empty : candidates = [] => offered _ (List.mem_cons_self _ _) (empty ▸ found)
      rw [chosen]
      have kept := HashMap.keys_insert_of_mem here (some selected)
      obtain ⟨resolved, ran, same, updated⟩ := resolveErrors_updateOn rest
        { analyzedFunction with
          errors := analyzedFunction.errors.insert errorSelector (some selected) }
        nodup.2 (fun entry member => kept ▸ later entry member) laterOffered
      refine ⟨resolved, ran, same, ?_⟩
      rw [updated, HashMap.entries_insert_of_mem here, List.map_cons,
        HashMap.updateOn_overwrite nodup.1 fun _ _ => by simp only [errorUpdate, found, pick]]
    · rename_i absent
      obtain ⟨resolved, ran, same, updated⟩ :=
        resolveErrors_updateOn rest analyzedFunction nodup.2 later laterOffered
      refine ⟨resolved, ran, same, ?_⟩
      rw [updated, List.map_cons,
        HashMap.updateOn_cons_of_fixed fun _ _ => by simp only [errorUpdate, absent]]

/-- The error loop exits with "invalid selection" when a lookup it visits answers an empty
list. -/
theorem resolveErrors_exits :
    ∀ (visit : List (String × Option ResolvedSignature)) (analyzedFunction : Function),
      (∃ entry ∈ visit, c.resolveErrorSignature entry.1 = some []) →
      resolveErrors c true visit analyzedFunction = .error .invalidSelection
  | [], _, ⟨_, member, _⟩ => (nomatch member)
  | (errorSelector, slot) :: rest, analyzedFunction, visited => by
    have later := ((List.exists_mem_cons_iff _ _ _).mp visited).resolve_left
    unfold resolveErrors
    split
    · rename_i candidates found
      by_cases noCandidates : candidates = []
      · subst noCandidates
        rfl
      · obtain ⟨selected, chosen, -⟩ := selectMatch_defaultPick defaults noCandidates
        rw [chosen]
        exact resolveErrors_exits rest _
          (later fun same => noCandidates (Option.some.inj (found.symm.trans same)))
    · rename_i absent
      exact resolveErrors_exits rest analyzedFunction
        (later fun same => nomatch absent.symm.trans same)

/-- Visiting the errors in any order exits exactly when some lookup answers an empty list, and
otherwise resolves each error slot to its update. -/
theorem resolveErrors_perm (analyzedFunction : Function)
    {visit : List (String × Option ResolvedSignature)}
    (order : visit.Perm analyzedFunction.errors.entries) :
    resolveErrors c true visit analyzedFunction =
      if ∃ key ∈ analyzedFunction.errors.keys, c.resolveErrorSignature key = some [] then
        .error .invalidSelection
      else .ok { analyzedFunction with
        errors := analyzedFunction.errors.mapValues (errorUpdate c) } := by
  split
  · rename_i exits
    obtain ⟨key, stored, empty⟩ := exits
    obtain ⟨entry, member, rfl⟩ := List.mem_map.mp stored
    exact resolveErrors_exits defaults visit analyzedFunction
      ⟨entry, order.symm.subset member, empty⟩
  · rename_i offered
    obtain ⟨resolved, ran, same, updated⟩ :=
      resolveErrors_updateOn defaults visit analyzedFunction
        ((order.map Prod.fst).nodup_iff.mpr analyzedFunction.errors.nodup_keys)
        (fun _ member => List.mem_map_of_mem _ (order.subset member))
        fun entry member empty =>
          offered ⟨entry.1, List.mem_map_of_mem _ (order.subset member), empty⟩
    rw [ran, same]
    congr 2
    refine HashMap.ext (updated.trans (HashMap.updateOn_of_forall_mem fun entry member => ?_))
    exact List.mem_map_of_mem _ (order.symm.subset member)

/-- After the event loop has visited some of the entries, each key once and none whose lookup
answers an empty list, the events are the original ones with exactly the visited keys
updated. -/
theorem resolveEvents_updateOn :
    ∀ (visit : List (String × (Option ResolvedSignature × Log))) (analyzedFunction : Function),
      (visit.map Prod.fst).Nodup →
      (∀ entry ∈ visit, entry ∈ analyzedFunction.events.entries) →
      (∀ entry ∈ visit, 64 ≤ entry.1.length) →
      (∀ entry ∈ visit, eventLookup c entry.1 ≠ some []) →
      ∃ resolved, resolveEvents c true visit analyzedFunction = .ok resolved ∧
        resolved = { analyzedFunction with events := resolved.events } ∧
        resolved.events.entries = HashMap.updateOn (visit.map Prod.fst) (eventUpdate c)
          analyzedFunction.events.entries
  | [], analyzedFunction, _, _, _, _ => ⟨analyzedFunction, rfl, rfl, HashMap.updateOn_nil.symm⟩
  | (eventSelector, (slot, rawEvent)) :: rest, analyzedFunction, nodup, stored, long, offered => by
    rw [List.map_cons, List.nodup_cons] at nodup
    have here := stored _ (List.mem_cons_self _ _)
    have hereKey : eventSelector ∈ analyzedFunction.events.keys := List.mem_map_of_mem _ here
    have later : ∀ entry ∈ rest, entry ∈ analyzedFunction.events.entries :=
      fun entry member => stored entry (List.mem_cons_of_mem _ member)
    have laterLong : ∀ entry ∈ rest, 64 ≤ entry.1.length :=
      fun entry member => long entry (List.mem_cons_of_mem _ member)
    have laterOffered : ∀ entry ∈ rest, eventLookup c entry.1 ≠ some [] :=
      fun entry member => offered entry (List.mem_cons_of_mem _ member)
    rw [resolveEvents_cons_of_long (long _ (List.mem_cons_self _ _))]
    split
    · rename_i candidates found
      obtain ⟨selected, chosen, pick⟩ := selectMatch_defaultPick defaults
        fun empty : candidates = [] => offered _ (List.mem_cons_self _ _) (empty ▸ found)
      rw [chosen]
      obtain ⟨resolved, ran, same, updated⟩ := resolveEvents_updateOn rest
        { analyzedFunction with
          events := analyzedFunction.events.insert eventSelector (some selected, rawEvent) }
        nodup.2 (fun entry member => HashMap.mem_entries_insert_of_ne (later entry member)
          fun sameKey => nodup.1
            (sameKey ▸ List.mem_map_of_mem Prod.fst member : eventSelector ∈ rest.map Prod.fst))
        laterLong laterOffered
      refine ⟨resolved, ran, same, ?_⟩
      rw [updated, HashMap.entries_insert_of_mem hereKey, List.map_cons,
        HashMap.updateOn_overwrite nodup.1 fun old oldStored => ?_]
      simp only [eventUpdate, found, pick, HashMap.mem_entries_unique oldStored here]
    · rename_i absent
      obtain ⟨resolved, ran, same, updated⟩ :=
        resolveEvents_updateOn rest analyzedFunction nodup.2 later laterLong laterOffered
      refine ⟨resolved, ran, same, ?_⟩
      rw [updated, List.map_cons,
        HashMap.updateOn_cons_of_fixed fun _ _ => by simp only [eventUpdate, absent]]

/-- The event loop over keys of at least 64 characters exits with "invalid selection" when a
lookup it visits answers an empty list. -/
theorem resolveEvents_exits :
    ∀ (visit : List (String × (Option ResolvedSignature × Log))) (analyzedFunction : Function),
      (∀ entry ∈ visit, 64 ≤ entry.1.length) →
      (∃ entry ∈ visit, eventLookup c entry.1 = some []) →
      resolveEvents c true visit analyzedFunction = .error .invalidSelection
  | [], _, _, ⟨_, member, _⟩ => (nomatch member)
  | (eventSelector, (slot, rawEvent)) :: rest, analyzedFunction, long, visited => by
    have laterLong : ∀ entry ∈ rest, 64 ≤ entry.1.length :=
      fun entry member => long entry (List.mem_cons_of_mem _ member)
    have later := ((List.exists_mem_cons_iff _ _ _).mp visited).resolve_left
    rw [resolveEvents_cons_of_long (long _ (List.mem_cons_self _ _))]
    split
    · rename_i candidates found
      by_cases noCandidates : candidates = []
      · subst noCandidates
        rfl
      · obtain ⟨selected, chosen, -⟩ := selectMatch_defaultPick defaults noCandidates
        rw [chosen]
        exact resolveEvents_exits rest _ laterLong
          (later fun same => noCandidates (Option.some.inj (found.symm.trans same)))
    · rename_i absent
      exact resolveEvents_exits rest analyzedFunction laterLong
        (later fun same => nomatch absent.symm.trans same)

/-- Visiting the events, whose keys have at least 64 characters, in any order exits exactly
when some lookup answers an empty list, and otherwise resolves each event slot to its
update. -/
theorem resolveEvents_perm (analyzedFunction : Function)
    (long : ∀ key ∈ analyzedFunction.events.keys, 64 ≤ key.length)
    {visit : List (String × (Option ResolvedSignature × Log))}
    (order : visit.Perm analyzedFunction.events.entries) :
    resolveEvents c true visit analyzedFunction =
      if ∃ key ∈ analyzedFunction.events.keys, eventLookup c key = some [] then
        .error .invalidSelection
      else .ok { analyzedFunction with
        events := analyzedFunction.events.mapValues (eventUpdate c) } := by
  have visitLong : ∀ entry ∈ visit, 64 ≤ entry.1.length :=
    fun _ member => long _ (List.mem_map_of_mem _ (order.subset member))
  split
  · rename_i exits
    obtain ⟨key, stored, empty⟩ := exits
    obtain ⟨entry, member, rfl⟩ := List.mem_map.mp stored
    exact resolveEvents_exits defaults visit analyzedFunction visitLong
      ⟨entry, order.symm.subset member, empty⟩
  · rename_i offered
    obtain ⟨resolved, ran, same, updated⟩ :=
      resolveEvents_updateOn defaults visit analyzedFunction
        ((order.map Prod.fst).nodup_iff.mpr analyzedFunction.events.nodup_keys)
        (fun _ member => order.subset member) visitLong
        fun entry member empty =>
          offered ⟨entry.1, List.mem_map_of_mem _ (order.subset member), empty⟩
    rw [ran, same]
    congr 2
    refine HashMap.ext (updated.trans (HashMap.updateOn_of_forall_mem fun entry member => ?_))
    exact List.mem_map_of_mem _ (order.symm.subset member)

/-- **The loops do not depend on the visiting order.** With default selection on, visiting a
function's errors in any order gives the same outcome, and so does visiting its events when
every event key has at least 64 characters: the same function, or the same "invalid
selection" exit when a lookup answers an empty list. The order `HashMap` iteration leaves
unspecified does not show in the result. -/
theorem resolveLoops_perm (analyzedFunction : Function)
    (long : ∀ key ∈ analyzedFunction.events.keys, 64 ≤ key.length)
    {errorOrder : List (String × Option ResolvedSignature)}
    {eventOrder : List (String × (Option ResolvedSignature × Log))}
    (errorsVisited : errorOrder.Perm analyzedFunction.errors.entries)
    (eventsVisited : eventOrder.Perm analyzedFunction.events.entries) :
    resolveErrors c true errorOrder analyzedFunction =
        resolveErrors c true analyzedFunction.errors.entries analyzedFunction ∧
      resolveEvents c true eventOrder analyzedFunction =
        resolveEvents c true analyzedFunction.events.entries analyzedFunction :=
  ⟨(resolveErrors_perm defaults _ errorsVisited).trans
      (resolveErrors_perm defaults _ (List.Perm.refl _)).symm,
    (resolveEvents_perm defaults _ long eventsVisited).trans
      (resolveEvents_perm defaults _ long (List.Perm.refl _)).symm⟩

/-- With default selection on, the function-signature block computes `signedSpec`. -/
theorem resolveFunction_spec (resolvedSelectors : HashMap String (List ResolvedSignature))
    (selector : String) (analyzedFunction : Function) :
    resolveFunction c true resolvedSelectors selector analyzedFunction =
      .ok ((resolvedSelectors.get selector).map fun candidates =>
        signedSpec c candidates analyzedFunction) := by
  unfold resolveFunction signedSpec
  cases resolvedSelectors.get selector with
  | none => rfl
  | some candidates =>
    dsimp only [Option.map_some']
    by_cases unmatched : (c.matchParameters candidates analyzedFunction).length = 0
    · simp only [unmatched, ↓reduceIte]
    · obtain ⟨selected, chosen, pick⟩ := selectMatch_defaultPick defaults
        (List.ne_nil_of_length_pos (Nat.pos_of_ne_zero unmatched))
      simp only [unmatched, ↓reduceIte, chosen, pick]
      rfl

end Defaults

section Completing

variable {c : Collaborators} (completes : Completes c)
include completes

/-- **One resolving round is `resolvedSpec`.** With default selection on, the round on a
selector whose entry point fits the trace's `u32` pushes the declarative result for its
analysis. -/
theorem analyzeSelector_spec (resolvedSelectors : HashMap String (List ResolvedSignature))
    {selector : String} (fits : c.resolveEntryPoint selector < UInt32.size) :
    analyzeSelector c true false resolvedSelectors selector =
      .ok ((analyzed c selector).bind (resolvedSpec c resolvedSelectors selector)) := by
  simp only [analyzeSelector, unwrap_tryIntoU32_bind, fits, ↓reduceIte]
  unfold analyzed
  by_cases falsePositive : c.resolveEntryPoint selector = 0
  · simp only [falsePositive, ↓reduceIte, Option.none_bind]
  simp only [falsePositive, Bool.false_eq_true, ↓reduceIte, Option.some_bind,
    resolveFunction_spec completes.defaults, resolvedSpec]
  generalize analysis : c.analyze selector _ _ = analyzedFunction
  cases resolvedSelectors.get selector with
  | none => rfl
  | some candidates =>
    set signed := signedSpec c candidates analyzedFunction
    have long : ∀ key ∈ signed.events.keys, 64 ≤ key.length := by
      rw [signedSpec_events, ← analysis]
      exact completes.topicsLong _ _ _
    have errorsOffered : ¬ ∃ key ∈ signed.errors.keys, c.resolveErrorSignature key = some [] :=
      fun ⟨_, _, empty⟩ => completes.errorsOffer _ _ empty rfl
    have eventsOffered : ¬ ∃ key ∈ signed.events.keys, eventLookup c key = some [] :=
      fun ⟨key, stored, empty⟩ => completes.eventsOffer _ _
        (by rwa [eventLookup_of_long (long key stored)] at empty) rfl
    dsimp only [Option.map_some', Except.bind]
    rw [resolveErrors_perm completes.defaults _ (List.Perm.refl _), if_neg errorsOffered]
    dsimp only [Except.bind]
    rw [resolveEvents_perm completes.defaults
      { signed with errors := signed.errors.mapValues (errorUpdate c) } long (List.Perm.refl _),
      if_neg eventsOffered]
    rfl

/-- The loop over selectors whose entry points fit pushes, in order, the declarative result of
every selector. -/
theorem analyzeSelectors_spec (resolvedSelectors : HashMap String (List ResolvedSignature)) :
    ∀ (selectors : List String) (analyzedFunctions : List Function), EntryPointsFit c selectors →
      analyzeSelectors c true false resolvedSelectors analyzedFunctions selectors =
        .ok (analyzedFunctions ++ selectors.filterMap fun selector =>
          (analyzed c selector).bind (resolvedSpec c resolvedSelectors selector))
  | [], analyzedFunctions, _ => by simp [analyzeSelectors]
  | selector :: rest, analyzedFunctions, fits => by
    obtain ⟨here, later⟩ := entryPointsFit_cons.mp fits
    rw [analyzeSelectors, analyzeSelector_spec completes _ here]
    cases emitted : (analyzed c selector).bind (resolvedSpec c resolvedSelectors selector) <;>
      simp [Except.bind, emitted, analyzeSelectors_spec resolvedSelectors rest _ later]

/-- **The resolving run is the map of `resolvedSpec`.** With default selection on, when every
entry point fits the trace's `u32`, every lookup that answers offers a candidate and every
event key has 64 characters, the run reaches `build_output` with the declarative result of each
selector that has a nonzero entry point and resolves, in discovery order. -/
theorem decompile_eq_spec {selectors : List String} (fits : EntryPointsFit c selectors) :
    decompile c true false selectors =
      .ok (selectors.filterMap fun selector =>
        (analyzed c selector).bind
          (resolvedSpec c (c.resolveFunctionSelectors selectors) selector)) := by
  simp only [decompile, Bool.false_eq_true, ↓reduceIte, analyzeSelectors_spec completes _ _ _ fits,
    List.nil_append]

end Completing

section Topics

variable {c : Collaborators} {defaultVal : Bool}

/-- The event loop returns only after slicing every key it visits to 64 characters. -/
theorem resolveEvents_long : ∀ (entries : List (String × (Option ResolvedSignature × Log)))
    (analyzedFunction resolved : Function),
    resolveEvents c defaultVal entries analyzedFunction = .ok resolved →
      ∀ entry ∈ entries, 64 ≤ entry.1.length
  | [], _, _, _ => fun _ member => (nomatch member)
  | (eventSelector, (_, rawEvent)) :: rest, analyzedFunction, resolved, ran => by
    unfold resolveEvents at ran
    obtain ⟨_, _, ran⟩ := bind_eq_ok.mp ran
    obtain ⟨_, sliced, ran⟩ := bind_eq_ok.mp ran
    have here : 64 ≤ eventSelector.length := by
      by_contra short
      rw [strPrefix, if_neg short] at sliced
      cases sliced
    refine List.forall_mem_cons.mpr ⟨here, ?_⟩
    split at ran
    · obtain ⟨_, _, ran⟩ := bind_eq_ok.mp ran
      exact resolveEvents_long rest _ resolved ran
    · exact resolveEvents_long rest _ resolved ran

/-- A resolving round that returns ran the event loop over every event key of the selector's
analysis. -/
theorem analyzeSelector_long {resolvedSelectors : HashMap String (List ResolvedSignature)}
    {selector : String} {result : Option Function}
    (ran : analyzeSelector c defaultVal false resolvedSelectors selector = .ok result) :
    Option.Rel (fun analysis resolved =>
        (∀ key ∈ analysis.events.keys, 64 ≤ key.length) ∧ ResolvesOnly analysis resolved)
      (resolvable c resolvedSelectors selector) result := by
  have related := analyzeSelector_resolving ran
  rcases analyzeSelector_resolving_cases ran with ⟨rfl, expected⟩ |
    ⟨_, _, withErrors, _, expected, _, _, events, rfl⟩
  · rw [expected]
    exact .none
  rw [expected] at related ⊢
  cases related with
  | some resolvesOnly =>
    have withEventsOnly :=
      resolveEvents_resolvesOnly _ _ _ (fun _ member => List.mem_map_of_mem _ member) events
    refine .some ⟨fun key member => ?_, resolvesOnly⟩
    rw [← resolvesOnly.events_keys, withEventsOnly.events_keys] at member
    obtain ⟨entry, stored, rfl⟩ := List.mem_map.mp member
    exact resolveEvents_long _ _ _ events entry stored

/-- **Short event keys stop the run.** A resolving run that reaches `build_output` sliced every
event key of every selector that resolves: each has at least 64 characters. A shorter key
panics at its `unwrap`, whatever the prompt and the lookups answer. -/
theorem decompile_topics_long {selectors : List String} {emitted : List Function}
    (ran : decompile c defaultVal false selectors = .ok emitted) :
    ∀ analysis ∈ selectors.filterMap (resolvable c (c.resolveFunctionSelectors selectors)),
      ∀ key ∈ analysis.events.keys, 64 ≤ key.length := by
  obtain ⟨pushed, -, related⟩ := @analyzeSelectors_rel c defaultVal (fun _ analysis resolved =>
      (∀ key ∈ analysis.events.keys, 64 ≤ key.length) ∧ ResolvesOnly analysis resolved) _
    (fun _ _ round => analyzeSelector_long round) selectors [] emitted ran
  exact ((List.forall₂_and_left _ _).mp (forall₂_resolvable.mp related)).1

end Topics

/-- The topic of `Transfer(address,address,uint256)`. -/
def transferTopic : String := "ddf252ad1be2c89b69c2b068fc378daa952ba7f163c4a11628f55a4df523b3ef"

/-- The analysis of the `transfer` selector: one `Transfer` event under its topic, and the
errors `Error(string)` and `Panic(uint256)`. -/
def transferAnalysis (selector : String) (entryPoint : Nat) : Function :=
  { Function.initial selector entryPoint with
    events := ⟨[(transferTopic, (none, ⟨0, [], []⟩))], by decide⟩
    errors := ⟨[("08c379a0", none), ("4e487b71", none)], by decide⟩ }

/-- Collaborators that resolve the `transfer` selector, its `Transfer` event and
`Error(string)`, and leave `Panic(uint256)` unresolved. -/
def transferResolving : Collaborators :=
  { transferOnly with
    analyze := fun selector entryPoint _ => transferAnalysis selector entryPoint
    resolveErrorSignature := fun selector =>
      if selector = "08c379a0" then some [signatureOf "Error(string)"] else none
    resolveEventSignature := fun topic =>
      if topic = transferTopic then some [signatureOf "Transfer(address,address,uint256)"]
      else none }

theorem transferResolving_completes : Completes transferResolving where
  defaults _ _ := rfl
  errorsOffer selector candidates answered := by
    dsimp only [transferResolving] at answered
    split at answered
    · cases answered
      exact List.cons_ne_nil _ _
    · cases answered
  eventsOffer topic candidates answered := by
    dsimp only [transferResolving] at answered
    split at answered
    · cases answered
      exact List.cons_ne_nil _ _
    · cases answered
  topicsLong _ _ _ key member := by
    obtain rfl : key = transferTopic := List.mem_singleton.mp member
    decide

/-- On the `transfer` contract the resolving run is the declarative map. -/
theorem decompile_eq_spec_transfer :
    EntryPointsFit transferResolving ["a9059cbb"] ∧
      decompile transferResolving true false ["a9059cbb"] =
        .ok (["a9059cbb"].filterMap fun selector => (analyzed transferResolving selector).bind
          (resolvedSpec transferResolving
            (transferResolving.resolveFunctionSelectors ["a9059cbb"]) selector)) :=
  have fits : EntryPointsFit transferResolving ["a9059cbb"] := by decide
  ⟨fits, decompile_eq_spec transferResolving_completes fits⟩

/-- The errors of the `transfer` analysis visited in reverse order, and its event. -/
theorem resolveLoops_perm_reversed :
    resolveErrors transferResolving true [("4e487b71", none), ("08c379a0", none)]
        (transferAnalysis "a9059cbb" 1) =
      resolveErrors transferResolving true (transferAnalysis "a9059cbb" 1).errors.entries
        (transferAnalysis "a9059cbb" 1) ∧
    resolveEvents transferResolving true (transferAnalysis "a9059cbb" 1).events.entries
        (transferAnalysis "a9059cbb" 1) =
      resolveEvents transferResolving true (transferAnalysis "a9059cbb" 1).events.entries
        (transferAnalysis "a9059cbb" 1) :=
  resolveLoops_perm transferResolving_completes.defaults (transferAnalysis "a9059cbb" 1)
    (transferResolving_completes.topicsLong "a9059cbb" 1 (Function.initial "a9059cbb" 1))
    (List.Perm.swap _ _ _) (List.Perm.refl _)

/-- The resolving run on the `transfer` contract reaches `build_output`, and the `Transfer`
topic it sliced has 64 characters. -/
theorem decompile_topics_long_transfer :
    (∃ emitted, decompile transferResolving true false ["a9059cbb"] = .ok emitted) ∧
      ∀ analysis ∈ ["a9059cbb"].filterMap
          (resolvable transferResolving (transferResolving.resolveFunctionSelectors ["a9059cbb"])),
        ∀ key ∈ analysis.events.keys, 64 ≤ key.length :=
  have ran : decompile transferResolving true false ["a9059cbb"] = .ok ([] ++ _) :=
    analyzeSelectors_spec transferResolving_completes _ ["a9059cbb"] [] (by decide)
  ⟨⟨_, ran⟩, decompile_topics_long ran⟩

end Mau.Decompile
