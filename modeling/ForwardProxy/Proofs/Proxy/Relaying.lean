import ForwardProxy.Proofs.Lists
import ForwardProxy.Proxy.TunnelHistory

/-!
# Relaying

A copy keeps all that it has read and all that it has written, and its state says what it has come to.
`Copy.Told` ties the three to what the copy has done: every event of a copy keeps this, and so does
its being stopped. `Tunnel.Sound` adds what the tunnel itself has noticed. In every run, then, what is
written is a beginning of what is read, and the result is a success exactly if both directions have
ended cleanly.

* `Copy.Steps`, `Tunnel.Joins`: what an event of a copy, and the noticing of an end, can do, with all guards. They are
  taken from the definitions once (`steps_of_step?`, `join?_eq_some`).
* `Told.after_step`, `Told.after_abort`: one direction. All events but the shutdown are one case
  (`Told.append_deed`); the shutdown is its own (`Told.after_finish`), because `complete` looks at the history in
  front of it.
* `Sound.after_copy`, `after_join`, `after_abort`, and from these `after_move` and `sound_of_run`.
* `streams_are_relayed`: what those at the two ends may rely on.

## How the result is noticed

The ends of the two directions are noticed one after the other, perhaps long after they have come about, and in any
order. So the result of a tunnel is no function of its history: `noticed` says what it is once all ends there are have
been noticed. `toNotice` falls each time, which bounds how many there can be (`length_le_of_joinAll?`) and gives a way
to notice them all (`exists_joinAll?`).

A failure is not undone by the other direction, but the other may go on until the failure is noticed, and may even end
cleanly. If both fail, the result is the error of one of them; which one is left open, as it is in the program.
-/

namespace ForwardProxy.Proxy

/-! ## One direction -/

namespace Copy

/-- The events that are possible, and the copies behind them. -/
inductive Steps (c : Copy) : CopyEvent → Copy → Prop
  | read {chunk : Bytes} : c.state = .copying → Steps c (.read chunk) { c with taken := c.taken ++ chunk }
  | readEnd : c.state = .copying → Steps c .readEnd { c with state := .draining }
  | wrote {n : Nat} : c.isActive = true →
      Steps c (.wrote n) { c with given := c.given ++ c.held.take n }
  | flushed : c.isActive = true → Steps c .flushed c
  | shutDown : c.state = .draining → c.held = [] → Steps c .shutDown { c with state := .finished }
  | fault {why : String} : c.isActive = true → Steps c (.fault why) { c with state := .failed why }

theorem steps_of_step? {c c' : Copy} {e : CopyEvent} (h : c.step? e = some c') : c.Steps e c' := by
  cases e with
  | read chunk =>
    obtain ⟨⟨hs, -⟩, rfl⟩ : (c.state = .copying ∧ chunk ≠ []) ∧ _ = c' := by
      simpa [step?] using h
    exact .read hs
  | readEnd =>
    obtain ⟨hs, rfl⟩ : c.state = .copying ∧ _ = c' := by simpa [step?] using h
    exact .readEnd hs
  | wrote n =>
    obtain ⟨⟨⟨ha, -⟩, -⟩, rfl⟩ : ((c.isActive = true ∧ 0 < n) ∧ n ≤ c.held.length) ∧ _ = c' := by
      simpa [step?] using h
    exact .wrote ha
  | flushed =>
    obtain ⟨⟨ha, -⟩, rfl⟩ : (c.isActive = true ∧ c.held = []) ∧ c = c' := by simpa [step?] using h
    exact .flushed ha
  | shutDown =>
    obtain ⟨⟨hs, hh⟩, rfl⟩ : (c.state = .draining ∧ c.held = []) ∧ _ = c' := by
      simpa [step?] using h
    exact .shutDown hs hh
  | fault why =>
    obtain ⟨ha, rfl⟩ : c.isActive = true ∧ _ = c' := by simpa [step?] using h
    exact .fault ha

theorem isActive_iff {c : Copy} : c.isActive = true ↔ c.state = .copying ∨ c.state = .draining := by
  simp [isActive]

/-- Only a copy at work does anything. -/
theorem Steps.isActive {c c' : Copy} {e : CopyEvent} (h : c.Steps e c') : c.isActive = true := by
  cases h with
  | read hs | readEnd hs => exact isActive_iff.mpr (.inl hs)
  | shutDown hs => exact isActive_iff.mpr (.inr hs)
  | wrote ha | flushed ha | fault ha => exact ha

/-- The copy is what its deeds have made of it. -/
structure Told (ds : List Deed) (c : Copy) : Prop where
  taken : c.taken = ds.flatMap Deed.input
  given : c.given = ds.flatMap Deed.output
  ahead : c.given <+: c.taken
  ended : c.state = .draining → .ended ∈ ds
  shut : .shut ∈ ds ↔ c.state = .finished
  failed : ∀ why, .failed why ∈ ds ↔ c.state = .failed why
  complete : ∀ {ds₁ ds₂}, ds = ds₁ ++ .shut :: ds₂ →
    .ended ∈ ds₁ ∧ ds₁.flatMap Deed.output = ds.flatMap Deed.input

namespace Told

variable {ds : List Deed} {c c' : Copy}

theorem at_start : Told [] {} where
  taken := rfl
  given := rfl
  ahead := List.prefix_rfl
  ended h := nomatch h
  shut := by simp
  failed := by simp
  complete h := by simp at h

/-- What has been read is what has been written and what is still held. -/
theorem given_append_held (T : Told ds c) : c.given ++ c.held = c.taken := by
  obtain ⟨rest, hrest⟩ := T.ahead
  rw [held, ← hrest, List.drop_left]

/-- A copy at work has neither shut its destination down nor failed. -/
theorem not_over (T : Told ds c) (ha : c.isActive = true) :
    .shut ∉ ds ∧ ∀ why, .failed why ∉ ds := by
  rw [isActive_iff] at ha
  constructor
  · intro hs
    rw [T.shut] at hs
    simp [hs] at ha
  · intro why hf
    rw [T.failed] at hf
    simp [hf] at ha

/-- One more deed, which is not a shutdown, of a copy at work. -/
theorem append_deed (T : Told ds c) (ha : c.isActive = true) {x : Deed} (hx : x ≠ .shut)
    (taken : c'.taken = c.taken ++ x.input) (given : c'.given = c.given ++ x.output)
    (ahead : c'.given <+: c'.taken) (ended : c'.state = .draining → .ended ∈ ds ++ [x])
    (shut : c'.state ≠ .finished) (failed : ∀ why, x = .failed why ↔ c'.state = .failed why) :
    Told (ds ++ [x]) c' := by
  obtain ⟨notShut, notFailed⟩ := T.not_over ha
  have still : .shut ∉ ds ++ [x] := by simp [notShut, Ne.symm hx]
  refine ⟨?_, ?_, ahead, ended, ?_, ?_, ?_⟩
  · simp [taken, T.taken]
  · simp [given, T.given]
  · exact ⟨fun h => absurd h still, fun h => absurd h shut⟩
  · intro why
    simp [notFailed, ← failed, eq_comm]
  · intro ds₁ ds₂ h
    exact absurd (h ▸ List.mem_append_right ds₁ List.mem_cons_self) still

/-- The destination is shut down, when the source has ended and nothing is held. -/
theorem after_finish (T : Told ds c) (hs : c.state = .draining) (hh : c.held = []) :
    Told (ds ++ [.shut]) { c with state := .finished } := by
  obtain ⟨notShut, notFailed⟩ := T.not_over (isActive_iff.mpr (.inr hs))
  have all : c.given = c.taken := by simpa [hh] using T.given_append_held
  refine ⟨?_, ?_, T.ahead, fun h => (nomatch h), by simp, by simp [notFailed], ?_⟩
  · simp [T.taken, Deed.input]
  · simp [T.given, Deed.output]
  · intro ds₁ ds₂ h
    -- nothing has been shut down before, so the shutdown is the last deed
    obtain rfl := eq_of_concat_eq notShut h
    refine ⟨T.ended hs, ?_⟩
    rw [List.flatMap_append, ← T.given, ← T.taken, all]
    simp [Deed.input]

/-- Every event of the copy is told. -/
theorem after_step (T : Told ds c) {e : CopyEvent} (h : c.step? e = some c') :
    Told (ds ++ [c.deed e]) c' := by
  have ha : c.isActive = true := (steps_of_step? h).isActive
  have shut : c.state ≠ .finished := by rintro hs; simp [isActive, hs] at ha
  have failed : ∀ why, c.state ≠ .failed why := by rintro why hs; simp [isActive, hs] at ha
  cases steps_of_step? h with
  | @read chunk hs =>
    refine T.append_deed ha (by simp [deed]) rfl (by simp [deed, Deed.output]) ?_ ?_ shut ?_
    · exact T.ahead.trans (List.prefix_append _ _)
    · simp [hs]
    · simp [deed, failed]
  | readEnd hs =>
    refine T.append_deed ha (by simp [deed]) (by simp [deed, Deed.input]) (by simp [deed, Deed.output])
      T.ahead ?_ (by simp) (by simp [deed])
    simp [deed]
  | @wrote n =>
    refine T.append_deed ha (by simp [deed]) (by simp [deed, Deed.input]) rfl ?_ ?_ shut ?_
    · refine ⟨c.held.drop n, ?_⟩
      rw [List.append_assoc, List.take_append_drop, T.given_append_held]
    · exact fun hs => List.mem_append_left _ (T.ended hs)
    · simp [deed, failed]
  | flushed =>
    refine T.append_deed ha (by simp [deed]) (by simp [deed, Deed.input]) (by simp [deed, Deed.output])
      T.ahead ?_ shut (by simp [deed, failed])
    exact fun hs => List.mem_append_left _ (T.ended hs)
  | shutDown hs hh => exact T.after_finish hs hh
  | @fault why =>
    refine T.append_deed ha (by simp [deed]) (by simp [deed, Deed.input]) (by simp [deed, Deed.output])
      T.ahead (by simp) (by simp) ?_
    simp [deed]

/-- A copy at work is stopped. -/
theorem after_abort (T : Told ds c) (ha : c.isActive = true) : Told ds { c with state := .aborted } := by
  obtain ⟨notShut, notFailed⟩ := T.not_over ha
  exact ⟨T.taken, T.given, T.ahead, fun h => (nomatch h), by simp [notShut], by simp [notFailed],
    T.complete⟩

/-- Everything has been written when the destination is shut down. -/
theorem given_eq_taken (T : Told ds c) (h : .shut ∈ ds) : c.given = c.taken := by
  obtain ⟨ds₁, ds₂, rfl⟩ := List.append_of_mem h
  obtain ⟨-, all⟩ := T.complete rfl
  have before : ds₁.flatMap Deed.output <+: c.given := by
    rw [T.given, List.flatMap_append]
    exact List.prefix_append _ _
  rw [all, ← T.taken] at before
  exact T.ahead.eq_of_length (Nat.le_antisymm T.ahead.length_le before.length_le)

end Told
end Copy

/-! ## Histories of one direction -/

namespace TunnelHistory

variable {h h' : TunnelHistory} {d : Direction} {x : Deed}

theorem deeds_append : (h ++ h').deeds d = h.deeds d ++ h'.deeds d := List.filterMap_append

theorem deeds_single (d' : Direction) : deeds [(d', x)] d = if d' = d then [x] else [] := by
  by_cases hd : d' = d <;> simp [deeds, hd]

theorem mem_deeds : x ∈ h.deeds d ↔ (d, x) ∈ h := by
  simp only [deeds, List.mem_filterMap, Option.ite_none_right_eq_some, Option.some.injEq]
  constructor
  · rintro ⟨⟨d', y⟩, hy, rfl, rfl⟩
    exact hy
  · exact fun hx => ⟨(d, x), hx, rfl, rfl⟩

end TunnelHistory

/-! ## Both directions -/

theorem Direction.eq_other {d d' : Direction} (h : d' ≠ d) : d' = d.other := by
  cases d <;> cases d' <;> first | rfl | exact absurd rfl h

namespace Tunnel

variable {h : TunnelHistory} {t t' : Tunnel} {d : Direction}

theorem copy_setCopy (t : Tunnel) (d d' : Direction) (c : Copy) :
    (t.setCopy d c).copy d' = if d' = d then c else t.copy d' := by
  cases d <;> cases d' <;> rfl

@[simp] theorem verdict_setCopy (t : Tunnel) (d : Direction) (c : Copy) :
    (t.setCopy d c).verdict = t.verdict := by
  cases d <;> rfl

/-- The ends that can be noticed: the first clean one, the second clean one, and a failure. -/
inductive Joins (t : Tunnel) (d : Direction) : Tunnel → Prop
  | first : t.verdict = .running → (t.copy d).state = .finished →
      Joins t d { t with verdict := .half d }
  | second {d' : Direction} : t.verdict = .half d' → d' ≠ d → (t.copy d).state = .finished →
      Joins t d { t with verdict := .over (.ok t.counts) }
  | failure {why : String} : (∀ r, t.verdict ≠ .over r) → (t.copy d).state = .failed why →
      Joins t d { t with verdict := .over (.error why) }

theorem join?_eq_some : t.join? d = some t' ↔ t.Joins d t' := by
  constructor
  · intro h
    unfold join? at h
    split at h
    · rename_i hv hs
      obtain rfl := Option.some.inj h
      exact .first hv hs
    · rename_i first hv hs
      split at h
      · cases h
      · rename_i hne
        obtain rfl := Option.some.inj h
        exact .second hv hne hs
    · rename_i why hv hs
      obtain rfl := Option.some.inj h
      exact .failure (by simp [hv]) hs
    · rename_i first why hv hs
      obtain rfl := Option.some.inj h
      exact .failure (by simp [hv]) hs
    · cases h
  · intro hj
    cases hj with
    | first hv hs => simp [join?, hv, hs]
    | second hv hne hs => simp [join?, hv, hs, hne]
    | failure hv hs =>
      match hverdict : t.verdict with
      | .over r => exact absurd hverdict (hv r)
      | .running => simp [join?, hverdict, hs]
      | .half d' => simp [join?, hverdict, hs]

/-- What the tunnel has noticed is what its copies have come to. -/
structure Sound (h : TunnelHistory) (t : Tunnel) : Prop where
  told : ∀ d, (t.copy d).Told (h.deeds d)
  half : ∀ {d}, t.verdict = .half d → (t.copy d).state = .finished
  success : ∀ {counts}, t.verdict = .over (.ok counts) →
    (∀ d, (t.copy d).state = .finished) ∧ t.counts = counts
  failure : ∀ {why}, t.verdict = .over (.error why) → ∃ d, (t.copy d).state = .failed why
  stopped : ∀ {d}, (t.copy d).state = .aborted → ∃ why, (t.copy d.other).state = .failed why

namespace Sound

theorem at_start : Sound [] {} where
  told d := by cases d <;> exact .at_start
  half h := nomatch h
  success h := nomatch h
  failure h := nomatch h
  stopped {d} h := by cases d <;> cases h

/-- A copy moves. -/
theorem after_copy (S : Sound h t) {e : CopyEvent} {c : Copy} (hc : (t.copy d).step? e = some c) :
    Sound (h ++ [(d, (t.copy d).deed e)]) (t.setCopy d c) := by
  have ha : (t.copy d).isActive = true := (Copy.steps_of_step? hc).isActive
  -- a copy that is over does not move
  have still : ∀ {d'}, (t.copy d').isActive = false → (t.setCopy d c).copy d' = t.copy d' := by
    intro d' hover
    rw [copy_setCopy, if_neg]
    rintro rfl
    exact Bool.false_ne_true (hover.symm.trans ha)
  refine ⟨?_, ?_, ?_, ?_, ?_⟩
  · intro d'
    rw [TunnelHistory.deeds_append, TunnelHistory.deeds_single, copy_setCopy]
    by_cases hd : d' = d
    · subst hd
      simpa using (S.told d').after_step hc
    · simpa [hd, Ne.symm hd] using S.told d'
  · intro d' hv
    have hs := S.half (by simpa using hv)
    rwa [still (by simp [Copy.isActive, hs])]
  · intro counts hv
    obtain ⟨finished, -⟩ := S.success (by simpa using hv)
    simp [Copy.isActive, finished d] at ha
  · intro why hv
    obtain ⟨d', hs⟩ := S.failure (by simpa using hv)
    exact ⟨d', by rwa [still (by simp [Copy.isActive, hs])]⟩
  · intro d' hs
    rw [copy_setCopy] at hs
    split at hs
    · cases Copy.steps_of_step? hc <;> simp_all [Copy.isActive]
    · obtain ⟨why, hf⟩ := S.stopped hs
      exact ⟨why, by rwa [still (by simp [Copy.isActive, hf])]⟩

/-- The end of a copy is noticed. -/
theorem after_join (S : Sound h t) (hj : t.join? d = some t') : Sound h t' := by
  cases join?_eq_some.mp hj with
  | first hv hs =>
    refine ⟨S.told, ?_, fun hv => (nomatch hv), fun hv => (nomatch hv), S.stopped⟩
    intro d' hv
    obtain rfl := Verdict.half.inj hv
    exact hs
  | @second d' hv hne hs =>
    refine ⟨S.told, fun hv => (nomatch hv), ?_, fun hv => (nomatch hv), S.stopped⟩
    intro counts hc
    obtain rfl : t.counts = counts := by simpa using hc
    refine ⟨?_, rfl⟩
    intro d''
    by_cases hd : d'' = d
    · exact hd ▸ hs
    · obtain rfl : d'' = d' := (Direction.eq_other hd).trans (Direction.eq_other hne).symm
      exact S.half hv
  | @failure why hv hs =>
    refine ⟨S.told, fun hv => (nomatch hv), fun hv => (nomatch hv), ?_, S.stopped⟩
    intro why' hw
    obtain rfl : why = why' := by simpa using hw
    exact ⟨d, hs⟩

/-- A copy is stopped, since the other direction has failed. -/
theorem after_abort (S : Sound h t) {why : String} (hv : t.verdict = .over (.error why))
    (ha : (t.copy d).isActive = true) :
    Sound h (t.setCopy d { t.copy d with state := .aborted }) := by
  obtain ⟨d₀, hf⟩ := S.failure hv
  have hne : d₀ ≠ d := by
    rintro rfl
    simp [Copy.isActive, hf] at ha
  have still : (t.setCopy d { t.copy d with state := .aborted }).copy d₀ = t.copy d₀ := by
    rw [copy_setCopy, if_neg hne]
  refine ⟨?_, ?_, ?_, ?_, ?_⟩
  · intro d'
    rw [copy_setCopy]
    split
    · rename_i hd
      exact hd ▸ (S.told d).after_abort ha
    · exact S.told d'
  · simp [hv]
  · simp [hv]
  · intro why' hv'
    obtain rfl : why = why' := by simpa [hv] using hv'
    exact ⟨d₀, by rwa [still]⟩
  · intro d' hs
    rw [copy_setCopy] at hs
    split at hs
    · rename_i hd
      obtain rfl : d₀ = d'.other := Direction.eq_other (hd ▸ hne)
      exact ⟨why, by rwa [still]⟩
    · rename_i hd
      -- the direction that has failed is this one's other, but a failed copy is not stopped
      obtain rfl : d₀ = d' := (Direction.eq_other hne).trans (Direction.eq_other hd).symm
      simp [hf] at hs

/-- Every move is sound. -/
theorem after_move (S : Sound h t) {m : TunnelMove} (hm : t.move? m = some t') :
    Sound (h ++ t.shows m) t' := by
  cases m with
  | copy d e =>
    obtain ⟨c, hc, rfl⟩ := Option.map_eq_some_iff.mp hm
    exact S.after_copy hc
  | join d =>
    rw [shows, List.append_nil]
    exact S.after_join hm
  | abort d =>
    rw [shows, List.append_nil]
    simp only [move?] at hm
    split at hm
    · rename_i why hv
      obtain ⟨ha, rfl⟩ : (t.copy d).isActive = true ∧ _ = t' := by simpa using hm
      exact S.after_abort hv ha
    · cases hm

end Sound

/-- Whatever the streams do, the tunnel is sound. -/
theorem sound_of_run (r : system.Run {} h t) : Sound h t := by
  induction r with
  | start => exact .at_start
  | move m _ hm ih => exact ih.after_move hm

/-! ## Results -/

/-- How many ends are still to be noticed at most. -/
def toNotice : Verdict → Nat
  | .running => 2
  | .half _ => 1
  | .over _ => 0

theorem toNotice_of_join? (hj : t.join? d = some t') :
    toNotice t'.verdict < toNotice t.verdict := by
  cases join?_eq_some.mp hj with
  | first hv => simp [toNotice, hv]
  | second hv => simp [toNotice, hv]
  | failure hv =>
    match hverdict : t.verdict with
    | .over r => exact absurd hverdict (hv r)
    | .running | .half _ => simp [toNotice]

theorem length_le_of_joinAll? {ds : List Direction} (hj : t.joinAll? ds = some t') :
    ds.length + toNotice t'.verdict ≤ toNotice t.verdict := by
  induction ds generalizing t with
  | nil =>
    obtain rfl := Option.some.inj hj
    simp
  | cons d ds ih =>
    obtain ⟨next, hd, hds⟩ := Option.bind_eq_some_iff.mp hj
    have first := toNotice_of_join? hd
    have rest := ih hds
    rw [List.length_cons]
    omega

/-- All ends there are can be noticed. -/
theorem exists_joinAll? (t : Tunnel) :
    ∃ ds t', t.joinAll? ds = some t' ∧ ∀ d, t'.join? d = none := by
  induction hn : toNotice t.verdict using Nat.strongRecOn generalizing t with
  | ind n ih =>
    by_cases h : ∀ d, t.join? d = none
    · exact ⟨[], t, rfl, h⟩
    · obtain ⟨d, hd⟩ := Classical.not_forall.mp h
      obtain ⟨next, hd⟩ := Option.ne_none_iff_exists'.mp hd
      obtain ⟨ds, t', hds, done⟩ := ih _ (hn ▸ toNotice_of_join? hd) next rfl
      exact ⟨d :: ds, t', by simp [joinAll?, hd, hds], done⟩

namespace Sound

theorem after_joinAll? {ds : List Direction} (S : Sound h t) (hj : t.joinAll? ds = some t') :
    Sound h t' := by
  induction ds generalizing t with
  | nil =>
    obtain rfl := Option.some.inj hj
    exact S
  | cons d ds ih =>
    obtain ⟨next, hd, hds⟩ := Option.bind_eq_some_iff.mp hj
    exact ih (S.after_join hd) hds

theorem shut_mem_iff (S : Sound h t) : (d, .shut) ∈ h ↔ (t.copy d).state = .finished := by
  rw [← TunnelHistory.mem_deeds]
  exact (S.told d).shut

theorem failed_mem_iff (S : Sound h t) {why : String} :
    (d, .failed why) ∈ h ↔ (t.copy d).state = .failed why := by
  rw [← TunnelHistory.mem_deeds]
  exact (S.told d).failed why

/-- How many bytes have gone forth and back when both directions have ended cleanly. -/
theorem counts_eq (S : Sound h t) (hs : ∀ d, (d, .shut) ∈ h) :
    t.counts = ((h.taken .forth).length, (h.taken .back).length) := by
  have all : ∀ d, (t.copy d).given = h.taken d := by
    intro d
    have T := S.told d
    rw [T.given_eq_taken (TunnelHistory.mem_deeds.mpr (hs d)), T.taken]
    rfl
  simp only [counts, ← all]
  rfl

/-- A failure is the result, unless it is still to be noticed. -/
theorem over_of_failed (S : Sound h t) (done : ∀ d, t.join? d = none)
    (hf : ∃ d why, (d, .failed why) ∈ h) :
    ∃ d why, (d, .failed why) ∈ h ∧ t.verdict = .over (.error why) := by
  obtain ⟨d, why, hf⟩ := hf
  have failed : (t.copy d).state = .failed why := S.failed_mem_iff.mp hf
  by_cases hv : ∀ r, t.verdict ≠ .over r
  · have joins := join?_eq_some.mpr (.failure hv failed)
    simp [done d] at joins
  · obtain ⟨r, hr⟩ := Classical.not_forall.mp hv
    have hr := Classical.not_not.mp hr
    cases r with
    | ok counts => simp [(S.success hr).1 d] at failed
    | error why' =>
      obtain ⟨d', hf'⟩ := S.failure hr
      exact ⟨d', why', S.failed_mem_iff.mpr hf', hr⟩

/-- Two clean ends are the result, unless one of them is still to be noticed. -/
theorem over_of_shut (S : Sound h t) (done : ∀ d, t.join? d = none)
    (hs : ∀ d, (d, .shut) ∈ h) :
    t.verdict = .over (.ok ((h.taken .forth).length, (h.taken .back).length)) := by
  have finished : ∀ d, (t.copy d).state = .finished := fun d => S.shut_mem_iff.mp (hs d)
  match hv : t.verdict with
  | .running =>
    have joins := join?_eq_some.mpr (.first hv (finished .forth))
    simp [done] at joins
  | .half d =>
    have hne : d ≠ d.other := by cases d <;> simp [Direction.other]
    have joins := join?_eq_some.mpr (.second hv hne (finished d.other))
    simp [done] at joins
  | .over (.error why) =>
    obtain ⟨d, hf⟩ := S.failure hv
    simp [finished d] at hf
  | .over (.ok counts) =>
    obtain ⟨-, rfl⟩ := S.success hv
    rw [S.counts_eq hs]

/-- A destination is shut down only when its source has ended and all bytes are written. -/
theorem ended_of_shut (S : Sound h t) {h₁ h₂ : TunnelHistory} (hh : h = h₁ ++ (d, .shut) :: h₂) :
    (d, .ended) ∈ h₁ ∧ h₁.given d = h.taken d := by
  have deeds : h.deeds d = h₁.deeds d ++ .shut :: TunnelHistory.deeds h₂ d := by
    have cut : h = h₁ ++ ([(d, .shut)] ++ h₂) := hh
    rw [cut, TunnelHistory.deeds_append, TunnelHistory.deeds_append, TunnelHistory.deeds_single,
      if_pos rfl, List.singleton_append]
  obtain ⟨ended, all⟩ := (S.told d).complete deeds
  exact ⟨TunnelHistory.mem_deeds.mp ended, all⟩

/-- A clean end of one direction leaves the other alone. -/
theorem other_of_shut (S : Sound h t) (hs : (d, .shut) ∈ h) :
    (t.copy d.other).isActive = true ∨ (d.other, .shut) ∈ h ∨ ∃ why, (d.other, .failed why) ∈ h := by
  have finished : (t.copy d).state = .finished := S.shut_mem_iff.mp hs
  cases hstate : (t.copy d.other).state with
  | copying => exact .inl (Copy.isActive_iff.mpr (.inl hstate))
  | draining => exact .inl (Copy.isActive_iff.mpr (.inr hstate))
  | finished => exact .inr (.inl (S.shut_mem_iff.mpr hstate))
  | failed why => exact .inr (.inr ⟨why, S.failed_mem_iff.mpr hstate⟩)
  | aborted =>
    obtain ⟨why, hf⟩ := S.stopped hstate
    have same : d.other.other = d := by cases d <;> rfl
    rw [same, finished] at hf
    cases hf

end Sound

/-- What those at the two ends of a tunnel may rely on. -/
structure Relayed (h : TunnelHistory) (t : Tunnel) : Prop where
  /-- What has been written is a beginning of what has been read. -/
  ahead : ∀ d, h.given d <+: h.taken d
  /-- A destination is shut down only when its source has ended and all bytes have been written. -/
  complete : ∀ {d} {h₁ h₂ : TunnelHistory}, h = h₁ ++ (d, .shut) :: h₂ →
    (d, .ended) ∈ h₁ ∧ h₁.given d = h.taken d
  /-- A direction that has ended cleanly does not stop the other, which is at work unless it has come
  to its own end. -/
  independent : ∀ {d}, (d, .shut) ∈ h →
    (t.copy d.other).isActive = true ∨ (d.other, .shut) ∈ h ∨ ∃ why, (d.other, .failed why) ∈ h
  /-- A success says that both directions have ended cleanly, and how many bytes there were. -/
  success : ∀ {m n}, t.verdict = .over (.ok (m, n)) →
    (∀ d, (d, .shut) ∈ h) ∧ (h.taken .forth).length = m ∧ (h.taken .back).length = n
  /-- An error is that of a direction. -/
  failure : ∀ {why}, t.verdict = .over (.error why) → ∃ d, (d, .failed why) ∈ h
  /-- In whatever order the ends are noticed: there are two at most, and once all there are have been
  noticed, two clean ends have led to a success and a failure of any direction to an error. -/
  noticed : (∃ ds t', t.joinAll? ds = some t' ∧ ∀ d, t'.join? d = none) ∧
    ∀ {ds t'}, t.joinAll? ds = some t' → ds.length ≤ 2 ∧ ((∀ d, t'.join? d = none) →
      ((∀ d, (d, .shut) ∈ h) →
        t'.verdict = .over (.ok ((h.taken .forth).length, (h.taken .back).length))) ∧
      ((∃ d why, (d, .failed why) ∈ h) →
        ∃ d why, (d, .failed why) ∈ h ∧ t'.verdict = .over (.error why)))

/-- Streams are relayed in both directions: however reads and writes are cut into pieces, however the two
directions are interleaved, and whatever fails. -/
theorem streams_are_relayed (r : system.Run {} h t) : Relayed h t := by
  have S : Sound h t := sound_of_run r
  constructor
  case ahead =>
    intro d
    have T := S.told d
    rw [TunnelHistory.given, TunnelHistory.taken, ← T.given, ← T.taken]
    exact T.ahead
  case complete => exact S.ended_of_shut
  case independent => exact S.other_of_shut
  case success =>
    intro m n hv
    obtain ⟨finished, hc⟩ := S.success hv
    have shut : ∀ d, (d, .shut) ∈ h := fun d => S.shut_mem_iff.mpr (finished d)
    rw [S.counts_eq shut] at hc
    exact ⟨shut, congrArg Prod.fst hc, congrArg Prod.snd hc⟩
  case failure =>
    intro why hv
    obtain ⟨d, hf⟩ := S.failure hv
    exact ⟨d, S.failed_mem_iff.mpr hf⟩
  case noticed =>
    refine ⟨exists_joinAll? t, ?_⟩
    intro ds t' hj
    have S' : Sound h t' := S.after_joinAll? hj
    have few : toNotice t.verdict ≤ 2 := by cases t.verdict <;> simp [toNotice]
    have noticed := length_le_of_joinAll? hj
    exact ⟨by omega, fun done => ⟨S'.over_of_shut done, S'.over_of_failed done⟩⟩

/-- Two bytes have gone forth, one by one, and the first stream has ended; then the second stream fails
after one byte. -/
def brokenReply : TunnelHistory :=
  [(.forth, .took [1, 2]), (.forth, .gave [1]), (.forth, .ended), (.back, .took [3]),
    (.forth, .gave [2]), (.forth, .shut), (.back, .gave [3]), (.back, .failed "reset")]

theorem streams_are_relayed_broken : ∃ t, system.Run {} brokenReply t ∧
    t.verdict = .half .forth ∧ Relayed brokenReply t := by
  have moves : system.replay {}
      [.copy .forth (.read [1, 2]), .copy .forth (.wrote 1), .copy .forth .readEnd,
        .copy .back (.read [3]), .copy .forth (.wrote 1), .copy .forth .shutDown, .join .forth,
        .copy .back (.wrote 1), .copy .back (.fault "reset")] = some (brokenReply, _) := rfl
  have run := StepSystem.Run.of_replay moves
  exact ⟨_, run, rfl, streams_are_relayed run⟩

end Tunnel
end ForwardProxy.Proxy
