import ForwardProxy.Moderation.LoggedGate
import ForwardProxy.Proofs.Lists
import ForwardProxy.Proofs.Moderation.Moves
import Mathlib.Data.List.Nodup

/-!
# Ids and records

`Filed` ties the log to the requests: ids are handed out once, and the records are those of the requests
that have one. Of the moves of a request only three matter to it. An id is drawn, a record is kept, and
a record is forgotten; all others are quiet.

* `after_draw`, `after_keep`, `after_finish`: the three moves.
* `append_of_unrecorded`: all others, with `after_set_task` for those of a request.
* `Gate.about_set`, `about_step`, `about_submit`: what a request tells of itself, when it or another one moves. They
  are for any function of a request, and `filed` is one of these.
* `eq_of_mem_saves`: an id has been given to one request only.

An id is drawn in one step and used in another, and any number of requests may have drawn one in between. So an id
that has been drawn belongs to the request although neither history nor log knows of it: `drawn_counted`, `drawn_new`
and `drawn_apart` keep it from being given out again, by the counter of the log, which is above all of them.

`going` divides the requests that have been saved into those whose record is there and those that are over. With
`records` it says that the log has no records but these.
-/

namespace ForwardProxy.Moderation

/-! ## Records in the log -/

namespace Log

variable {l : Log} {id : Nat} {r : Record}

theorem mem_put {p : Nat × Record} :
    p ∈ (l.put id r).records ↔ p ∈ l.records ∧ p.1 ≠ id ∨ p = (id, r) := by
  simp [put]

theorem mem_finish {p : Nat × Record} :
    p ∈ (l.finish id).records ↔ p ∈ l.records ∧ p.1 ≠ id := by
  simp [finish]

theorem nodup_finish (hl : (l.records.map Prod.fst).Nodup) :
    ((l.finish id).records.map Prod.fst).Nodup :=
  hl.sublist (List.filter_sublist.map Prod.fst)

theorem nodup_put (hl : (l.records.map Prod.fst).Nodup) :
    ((l.put id r).records.map Prod.fst).Nodup := by
  have others : ((l.records.filter fun p => p.1 ≠ id).map Prod.fst).Nodup := nodup_finish hl
  have new : id ∉ (l.records.filter fun p => p.1 ≠ id).map Prod.fst := by simp
  rw [put, List.map_append, List.map_singleton]
  exact List.nodup_append.mpr ⟨others, List.nodup_singleton _, by grind⟩

/-- A look-up finds exactly what is kept. -/
theorem get?_eq_some_iff (hl : (l.records.map Prod.fst).Nodup) :
    l.get? id = some r ↔ (id, r) ∈ l.records := by
  constructor
  · intro h
    obtain ⟨p, hp, rfl⟩ := Option.map_eq_some_iff.mp h
    have hid : p.1 = id := by simpa using List.find?_some hp
    rw [← hid]
    exact List.mem_of_find?_eq_some hp
  · intro h
    cases hf : l.records.find? fun p => p.1 = id with
    | none =>
      have := List.find?_eq_none.mp hf (id, r) h
      simp at this
    | some p =>
      have hid : p.1 = id := by simpa using List.find?_some hf
      have hp : p = (id, r) := List.inj_on_of_nodup_map hl (List.mem_of_find?_eq_some hf) h hid
      rw [get?, hf, hp, Option.map_some]

end Log

/-! ## Ids in histories -/

namespace History

variable {h es : History}

theorem saves_append : (h ++ es).saves = h.saves ++ es.saves := List.filterMap_append

theorem mem_saves {n id : Nat} : (n, id) ∈ h.saves ↔ .recorded n (some id) ∈ h := by
  rw [saves, List.mem_filterMap]
  constructor
  · rintro ⟨e, he, hs⟩
    cases e with
    | recorded m found =>
      cases found with
      | some id' =>
        obtain ⟨rfl, rfl⟩ : m = n ∧ id' = id := by simpa using hs
        exact he
      | none => simp at hs
    | _ => simp at hs
  · intro he
    exact ⟨_, he, rfl⟩

/-- No id is given by events none of which is a record. -/
theorem saves_append_eq (hes : ∀ n id, .recorded n (some id) ∉ es) : (h ++ es).saves = h.saves := by
  have unsaved : es.saves = [] := by
    rw [List.eq_nil_iff_forall_not_mem]
    rintro ⟨n, id⟩ he
    exact hes n id (mem_saves.mp he)
  rw [saves_append, unsaved, List.append_nil]

end History

/-! ## What requests tell of themselves -/

namespace Gate

/-- What request `n` tells of itself. -/
def about {α : Type} (f : Task → Option α) (g : Gate) (n : Nat) : Option α := (g.tasks[n]?).bind f

variable {α : Type} {f : Task → Option α} {g : Gate} {n m : Nat} {t : Task} {s : State} {p : Progress}

theorem about_eq_some {a : α} : g.about f n = some a ↔ ∃ t, g.tasks[n]? = some t ∧ f t = some a :=
  Option.bind_eq_some_iff

/-- A request comes in that has nothing to tell yet. -/
theorem about_submit {s : Proxy.Session} (hf : f ⟨s, .arrived⟩ = none) :
    (g.submit s).about f = g.about f := by
  funext n
  rcases Nat.lt_trichotomy n g.tasks.length with hn | rfl | hn
  · rw [about, submit, List.getElem?_append_left hn, about]
  · rw [about, submit, List.getElem?_concat_length, about, List.getElem?_eq_none (Nat.le_refl _)]
    exact hf
  · rw [about, submit, List.getElem?_eq_none (by simp; omega), about,
      List.getElem?_eq_none (Nat.le_of_lt hn)]

/-- Request `n` moves. -/
theorem about_set (ht : g.tasks[n]? = some t) (m : Nat) :
    about f { g with state := s, tasks := g.tasks.set n { t with progress := p } } m =
      if m = n then f { t with progress := p } else g.about f m := by
  have hn : n < g.tasks.length := (List.getElem?_eq_some_iff.mp ht).1
  split
  · rename_i hm
    rw [about, hm, List.getElem?_set_self hn]
    rfl
  · rename_i hm
    rw [about, List.getElem?_set_ne (Ne.symm hm), about]

/-- Request `n` moves, and tells the same afterwards. -/
theorem about_step (ht : g.tasks[n]? = some t) (hf : f { t with progress := p } = f t) :
    about f { g with state := s, tasks := g.tasks.set n { t with progress := p } } = g.about f := by
  funext m
  rw [about_set ht, hf]
  split
  · rename_i hm
    rw [hm, about, ht]
    rfl
  · rfl

end Gate

/-! ## Requests with records -/

/-- The id of a request and its record, while that is kept. -/
def Task.filed (t : Task) : Option (Nat × Record) := t.progress.id?.map (·, t.record)

namespace Gate

/-- What is filed of request `n`. -/
def filed (g : Gate) (n : Nat) : Option (Nat × Record) := g.about Task.filed n

/-- Request `n` has left the gate. -/
def Over (g : Gate) (n : Nat) : Prop := ∃ t o, g.tasks[n]? = some t ∧ t.progress = .done o

variable {g : Gate} {n m : Nat} {t : Task}

theorem filed_eq_some {id : Nat} {r : Record} :
    g.filed n = some (id, r) ↔ ∃ t, g.tasks[n]? = some t ∧ t.progress.id? = some id ∧ r = t.record := by
  rw [filed, about_eq_some]
  constructor
  · rintro ⟨t, ht, hf⟩
    obtain ⟨id', hid, hr⟩ := Option.map_eq_some_iff.mp hf
    obtain ⟨rfl, rfl⟩ := Prod.mk.inj hr
    exact ⟨t, ht, hid, rfl⟩
  · rintro ⟨t, ht, hid, rfl⟩
    exact ⟨t, ht, by rw [Task.filed, hid, Option.map_some]⟩

/-- A request that has left stays away, whoever moves. -/
theorem over_set {s : State} {p : Progress} (ht : g.tasks[n]? = some t)
    (hnot : t.progress.outcome? = none) (h : g.Over m) :
    Over { g with state := s, tasks := g.tasks.set n { t with progress := p } } m := by
  obtain ⟨t', o, ht', ho⟩ := h
  have hm : m ≠ n := by
    rintro rfl
    obtain rfl := Option.some.inj (ht.symm.trans ht')
    simp [ho, Progress.outcome?] at hnot
  exact ⟨t', o, (List.getElem?_set_ne (Ne.symm hm)).trans ht', ho⟩

end Gate

/-! ## The log and the requests -/

/-- Ids are handed out once, and records are those of the requests that have one. -/
structure Filed (h : History) (g : LoggedGate) : Prop where
  distinct : (h.saves.map Prod.snd).Nodup
  counted : ∀ {n id}, (n, id) ∈ h.saves → id < g.gate.state.log.nextId
  drawn_counted : ∀ {n id}, g.drawn n = some id → id < g.gate.state.log.nextId
  drawn_new : ∀ {n m id}, g.drawn n = some id → (m, id) ∉ h.saves
  drawn_apart : ∀ {n m id}, g.drawn n = some id → g.drawn m = some id → n = m
  drawing : ∀ {n id}, g.drawn n = some id → ∃ t, g.gate.tasks[n]? = some t ∧ t.progress = .recording
  saved : ∀ {n id r}, g.gate.filed n = some (id, r) → (n, id) ∈ h.saves
  going : ∀ {n id}, (n, id) ∈ h.saves → (∃ r, g.gate.filed n = some (id, r)) ∨ g.gate.Over n
  keys : (g.gate.state.log.records.map Prod.fst).Nodup
  records : ∀ {id r}, (id, r) ∈ g.gate.state.log.records ↔ ∃ n, g.gate.filed n = some (id, r)

namespace Filed

variable {h es : History} {g : LoggedGate} {n m id : Nat} {t : Task} {r : Record}

theorem at_start (on : Bool) : Filed [] (LoggedGate.start on) where
  distinct := by simp [History.saves]
  counted := by simp [History.saves]
  drawn_counted := by simp [LoggedGate.start]
  drawn_new := by simp [History.saves]
  drawn_apart := by simp [LoggedGate.start]
  drawing := by simp [LoggedGate.start]
  saved := by simp [LoggedGate.start, Gate.filed, Gate.about]
  going := by simp [History.saves]
  keys := by simp [LoggedGate.start]
  records := by simp [LoggedGate.start, Gate.filed, Gate.about]

/-- Who has an id has it alone. -/
theorem eq_of_mem_saves (F : Filed h g) (hn : (n, id) ∈ h.saves) (hm : (m, id) ∈ h.saves) : n = m :=
  congrArg Prod.fst (List.inj_on_of_nodup_map F.distinct hn hm rfl)

variable {after : LoggedGate}

/-- No id is drawn and no record is kept or forgotten. -/
theorem append_of_unrecorded (F : Filed h g) (hes : ∀ n id, .recorded n (some id) ∉ es)
    (hlog : after.gate.state.log = g.gate.state.log) (hdrawn : after.drawn = g.drawn)
    (hfiled : after.gate.filed = g.gate.filed) (hover : ∀ {m}, g.gate.Over m → after.gate.Over m)
    (htasks : ∀ {m id}, g.drawn m = some id → after.gate.tasks[m]? = g.gate.tasks[m]?) :
    Filed (h ++ es) after := by
  constructor
  all_goals simp only [History.saves_append_eq hes, hlog, hfiled, hdrawn]
  case distinct => exact F.distinct
  case counted => exact F.counted
  case drawn_counted => exact F.drawn_counted
  case drawn_new => exact F.drawn_new
  case drawn_apart => exact F.drawn_apart
  case drawing =>
    intro m id hd
    rw [htasks hd]
    exact F.drawing hd
  case saved => exact F.saved
  case going => exact fun hs => (F.going hs).imp_right hover
  case keys => exact F.keys
  case records => exact F.records

/-- Request `n` moves, and keeps its id if it has one. -/
theorem after_set_task (F : Filed h g) {s : State} {p : Progress} (ht : g.gate.tasks[n]? = some t)
    (hnot : t.progress.outcome? = none) (hd : g.drawn n = none)
    (hes : ∀ n id, .recorded n (some id) ∉ es) (hlog : s.log = g.gate.state.log)
    (hid : p.id? = t.progress.id?) :
    Filed (h ++ es) { g with gate := { g.gate with
      state := s, tasks := g.gate.tasks.set n { t with progress := p } } } := by
  have same : Task.filed { t with progress := p } = t.filed := by rw [Task.filed, hid]; rfl
  refine F.append_of_unrecorded hes hlog rfl (Gate.about_step ht same) (Gate.over_set ht hnot) ?_
  intro m id hm
  have hne : n ≠ m := by
    rintro rfl
    simp [hd] at hm
  exact List.getElem?_set_ne hne

/-- Request `n` draws an id. -/
theorem after_draw (F : Filed h g) (ht : g.gate.tasks[n]? = some t) (hp : t.progress = .recording) :
    Filed h (LoggedGate.setDrawn
      { g with gate := { g.gate with state := { g.gate.state with log := g.gate.state.log.draw.2 } } }
      n (some g.gate.state.log.nextId)) := by
  -- the new id is larger than all that have been drawn before
  have drawn : ∀ {m id}, (if m = n then some g.gate.state.log.nextId else g.drawn m) = some id →
      (m = n ∧ id = g.gate.state.log.nextId) ∨ (g.drawn m = some id ∧ id < g.gate.state.log.nextId) := by
    intro m id hd
    split at hd
    · rename_i hm
      exact .inl ⟨hm, (Option.some.inj hd).symm⟩
    · exact .inr ⟨hd, F.drawn_counted hd⟩
  constructor
  case distinct => exact F.distinct
  case counted => exact fun hs => Nat.lt_succ_of_lt (F.counted hs)
  case drawn_counted =>
    intro m id hd
    rcases drawn hd with ⟨-, rfl⟩ | ⟨-, hlt⟩
    · exact Nat.lt_succ_self _
    · exact Nat.lt_succ_of_lt hlt
  case drawn_new =>
    intro m m' id hd hs
    rcases drawn hd with ⟨-, rfl⟩ | ⟨hd, -⟩
    · exact Nat.lt_irrefl _ (F.counted hs)
    · exact F.drawn_new hd hs
  case drawn_apart =>
    intro m m' id hd hd'
    rcases drawn hd with ⟨rfl, rfl⟩ | ⟨hd, hlt⟩ <;> rcases drawn hd' with ⟨rfl, hid⟩ | ⟨hd', hlt'⟩
    · rfl
    · exact absurd hlt' (Nat.lt_irrefl _)
    · exact absurd (hid ▸ hlt) (Nat.lt_irrefl _)
    · exact F.drawn_apart hd hd'
  case drawing =>
    intro m id hd
    rcases drawn hd with ⟨rfl, -⟩ | ⟨hd, -⟩
    · exact ⟨t, ht, hp⟩
    · exact F.drawing hd
  case saved => exact F.saved
  case going => exact F.going
  case keys => exact F.keys
  case records => exact F.records

/-- The record of request `n` is kept under the id that it has drawn. -/
theorem after_keep (F : Filed h g) (hd : g.drawn n = some id) (hn : g.gate.filed n = none)
    (hlog : after.gate.state.log = g.gate.state.log.put id r)
    (hdrawn : ∀ m, after.drawn m = if m = n then none else g.drawn m)
    (hfiled : ∀ m, after.gate.filed m = if m = n then some (id, r) else g.gate.filed m)
    (hover : ∀ {m}, g.gate.Over m → after.gate.Over m)
    (htasks : ∀ {m}, m ≠ n → after.gate.tasks[m]? = g.gate.tasks[m]?) :
    Filed (h ++ [.recorded n (some id)]) after := by
  have saves : History.saves (h ++ [.recorded n (some id)]) = h.saves ++ [(n, id)] :=
    History.saves_append
  have drawn : ∀ {m id'}, after.drawn m = some id' → m ≠ n ∧ g.drawn m = some id' := by
    intro m id' hd'
    rw [hdrawn] at hd'
    split at hd'
    · simp at hd'
    · rename_i hm
      exact ⟨hm, hd'⟩
  have others : ∀ {m p}, g.gate.filed m = some p → m ≠ n := by
    rintro m p hf rfl
    simp [hn] at hf
  constructor
  case distinct =>
    rw [saves, List.map_append, List.map_singleton, ← List.concat_eq_append, List.nodup_concat]
    refine ⟨?_, F.distinct⟩
    intro hid
    obtain ⟨⟨m, id'⟩, hs, rfl⟩ := List.mem_map.mp hid
    exact F.drawn_new hd hs
  case counted =>
    intro m id' hs
    rw [hlog]
    rcases List.mem_append.mp (saves ▸ hs) with hs | hs
    · exact F.counted hs
    · obtain ⟨rfl, rfl⟩ : m = n ∧ id' = id := by simpa using hs
      exact F.drawn_counted hd
  case drawn_counted =>
    intro m id' hd'
    rw [hlog]
    exact F.drawn_counted (drawn hd').2
  case drawn_new =>
    intro m m' id' hd' hs
    obtain ⟨hm, hd'⟩ := drawn hd'
    rcases List.mem_append.mp (saves ▸ hs) with hs | hs
    · exact F.drawn_new hd' hs
    · obtain ⟨-, rfl⟩ : m' = n ∧ id' = id := by simpa using hs
      exact hm (F.drawn_apart hd' hd)
  case drawn_apart => exact fun h1 h2 => F.drawn_apart (drawn h1).2 (drawn h2).2
  case drawing =>
    intro m id' hd'
    obtain ⟨hm, hd'⟩ := drawn hd'
    rw [htasks hm]
    exact F.drawing hd'
  case saved =>
    intro m id' r' hf
    rw [saves, List.mem_append]
    rw [hfiled] at hf
    split at hf
    · rename_i hm
      obtain ⟨rfl, -⟩ : id = id' ∧ r = r' := by simpa using hf
      exact .inr (by simp [hm])
    · exact .inl (F.saved hf)
  case going =>
    intro m id' hs
    simp only [hfiled]
    rcases List.mem_append.mp (saves ▸ hs) with hs | hs
    · rcases F.going hs with ⟨r', hf⟩ | left
      · exact .inl ⟨r', by rw [if_neg (others hf), hf]⟩
      · exact .inr (hover left)
    · obtain ⟨rfl, rfl⟩ : m = n ∧ id' = id := by simpa using hs
      exact .inl ⟨r, if_pos rfl⟩
  case keys =>
    rw [hlog]
    exact Log.nodup_put F.keys
  case records =>
    intro id' r'
    simp only [hlog, hfiled]
    rw [Log.mem_put, F.records]
    constructor
    · rintro (⟨⟨m, hf⟩, -⟩ | hr)
      · exact ⟨m, by rw [if_neg (others hf), hf]⟩
      · exact ⟨n, by rw [if_pos rfl, hr]⟩
    · rintro ⟨m, hf⟩
      split at hf
      · exact .inr (Option.some.inj hf).symm
      · refine .inl ⟨⟨m, hf⟩, ?_⟩
        rintro rfl
        exact F.drawn_new hd (F.saved hf)

/-- The record of request `n`, which leaves, is forgotten. -/
theorem after_finish (F : Filed h g) (hes : ∀ n id, .recorded n (some id) ∉ es)
    (hn : g.gate.filed n = some (id, r)) (hlog : after.gate.state.log = g.gate.state.log.finish id)
    (hdrawn : after.drawn = g.drawn)
    (hfiled : ∀ m, after.gate.filed m = if m = n then none else g.gate.filed m)
    (hover : ∀ {m}, m = n ∨ g.gate.Over m → after.gate.Over m)
    (htasks : ∀ {m id}, g.drawn m = some id → after.gate.tasks[m]? = g.gate.tasks[m]?) :
    Filed (h ++ es) after := by
  constructor
  all_goals simp only [History.saves_append_eq hes, hlog, hfiled, hdrawn]
  case distinct => exact F.distinct
  case counted => exact F.counted
  case drawn_counted => exact F.drawn_counted
  case drawn_new => exact F.drawn_new
  case drawn_apart => exact F.drawn_apart
  case drawing =>
    intro m id' hd
    rw [htasks hd]
    exact F.drawing hd
  case saved =>
    intro m id' r' hf
    split at hf
    · simp at hf
    · exact F.saved hf
  case going =>
    intro m id' hs
    by_cases hm : m = n
    · exact .inr (hover (.inl hm))
    · rw [if_neg hm]
      exact (F.going hs).imp_right fun left => hover (.inr left)
  case keys => exact Log.nodup_finish F.keys
  case records =>
    intro id' r'
    rw [Log.mem_finish, F.records]
    constructor
    · rintro ⟨⟨m, hf⟩, hid⟩
      have hm : m ≠ n := by
        rintro rfl
        exact hid (congrArg Prod.fst (Option.some.inj (hf.symm.trans hn)))
      exact ⟨m, by rw [if_neg hm, hf]⟩
    · rintro ⟨m, hf⟩
      split at hf
      · simp at hf
      · rename_i hm
        refine ⟨⟨m, hf⟩, ?_⟩
        rintro rfl
        exact hm (F.eq_of_mem_saves (F.saved hf) (F.saved hn))

end Filed
end ForwardProxy.Moderation
