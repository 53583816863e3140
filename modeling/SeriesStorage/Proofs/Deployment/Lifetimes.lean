import SeriesStorage.Proofs.Memory.AcceptedPoints
import SeriesStorage.Proofs.Number.ShortestText
import SeriesStorage.Proofs.Remote.CacheCoherence

/-!
# Lifetimes of ids

What a trace tells about ids: which ones are handed out as new (`issuedBy`), which entries write to
a series or read it (`touches`), and with which points (`handedTo`).

A `Register` says of a state of a backend which series are there, which ids are spent, and which
points were handed in for each series.  `Step` says what one visit may do to it, and a `History` is
made of such steps.  Then an id is never issued twice (`History.nodup`), and its series lives from
there to its removal and no longer (`History.lifetimes`).
-/

namespace SeriesStorage

open Remote (Uses defaultNamespace)

/-! ## What an entry tells -/

/-- Marks tell the entries of a batch apart. -/
def Call.Marked : Call → Prop
  | .create _ batch => (batch.map (·.1)).Nodup
  | _ => True

/-- The namespace of the entry of a mark. -/
def CreateBatch.nsOf (batch : CreateBatch) (mark : CreateMark) : Namespace :=
  ((batch.find? (·.1 = mark)).map (·.2.ns)).getD defaultNamespace

/-- The series whose ids an entry hands out as new. -/
def issuedBy : TraceEntry → List SeriesRef
  | (⟨_, .create _ batch⟩, .ok (.created rows)) =>
    (rows.filter (·.isNew)).map fun row => ⟨batch.nsOf row.mark, row.id⟩
  | _ => []

/-- Whether an entry reads points of a series, or stores some; it may have stored them though the
counts that were reported are wrong. -/
def touches (ref : SeriesRef) : TraceEntry → Bool
  | (⟨_, .write ref' _ _ _ _⟩, .ok _) => ref' = ref
  | (⟨_, .write ref' _ _ _ _⟩, .error (.internal (.writeCount _ _))) => ref' = ref
  | (⟨_, .read ref' _⟩, .ok _) => ref' = ref
  | _ => false

/-- The points that an entry stores for a series, or keeps until they are flushed. -/
def handedTo (ref : SeriesRef) (e : TraceEntry) : List AcceptedPoint :=
  match e.1.call with
  | .write _ _ _ times values => if touches ref e then times.zip values else []
  | _ => []

/-- A point is what a read makes of a point that was handed in; it does not tell not-a-numbers
apart. -/
def Point.ShowsGiven (p : Point) (given : AcceptedPoint) : Prop :=
  p.time = storedTime given.1 ∧ p.value.canonical = given.2.canonical

/-- A creation that failed.  It may have created series, the ids of which it does not tell. -/
def conceals : TraceEntry → Bool
  | (⟨_, .create _ _⟩, .error _) => true
  | _ => false

/-- Ids keep their meaning throughout a trace: a series is touched only after its id was issued, is
unknown after it was removed, and its reads show points that were handed to it. -/
structure Lifetimes (trace : Trace) : Prop where
  /-- Nothing is written to a series or read from it before its id is issued. -/
  unborn : ∀ before e after, trace = before ++ e :: after → ∀ ref ∈ issuedBy e,
    ∀ e' ∈ before, touches ref e' = false
  /-- What is written to or read was issued before, unless a failed creation does not tell. -/
  born : ∀ before e after, trace = before ++ e :: after → (∀ e' ∈ before, conceals e' = false) →
    ∀ ref, touches ref e = true → ref ∈ before.flatMap issuedBy
  /-- A series that was removed stays unknown. -/
  gone : ∀ before e after, trace = before ++ e :: after → ∀ ref, removes ref e = true →
    ∀ e' ∈ after, Uses e'.1 ref → e'.2 = .error .metadataNotFound
  /-- What is read from a series was handed to it. -/
  sources : ∀ before time ref window points after,
    trace = before ++ (⟨time, .read ref window⟩, .ok (.points points)) :: after →
    ∀ p ∈ points, ∃ e ∈ before, ∃ given ∈ handedTo ref e, p.ShowsGiven given

/-! ## Histories -/

/-- Which series are there, which ids are spent, and which points were handed to each series so
far. -/
structure Register (κ : Type) where
  has : SeriesRef → Prop
  spent : κ → Prop
  given : SeriesRef → AcceptedPoint → Prop

/-- What a visit may do; `ident` is what makes ids different. -/
structure Step {κ : Type} (ident : SeriesRef → κ) (r r' : Register κ) (e : TraceEntry) : Prop where
  known : ∀ ref, r.has ref → r.spent (ident ref)
  issued : ((issuedBy e).map ident).Nodup
  unspent : ∀ ref ∈ issuedBy e, ¬ r.spent (ident ref) ∧ r'.spent (ident ref)
  spends : ∀ k, r.spent k → r'.spent k
  stays : ∀ ref, r.spent (ident ref) → ¬ r.has ref → ¬ r'.has ref
  appears : conceals e = false → ∀ ref, r'.has ref → r.has ref ∨ ref ∈ issuedBy e
  removed : ∀ ref, removes ref e = true → r'.spent (ident ref) ∧ ¬ r'.has ref
  used : ∀ ref, touches ref e = true → r.has ref
  unknown : ∀ ref, r.spent (ident ref) → ¬ r.has ref → Uses e.1 ref →
    e.2 = .error .metadataNotFound
  given : ∀ ref p, r'.given ref p ↔ r.given ref p ∨ p ∈ handedTo ref e
  shown : ∀ time ref window points, e = (⟨time, .read ref window⟩, .ok (.points points)) →
    ∀ p ∈ points, ∃ given, r.given ref given ∧ p.ShowsGiven given

/-! ### Kinds of steps -/

/-- The points of one more entry were handed in. -/
def Register.after {κ : Type} (r : Register κ) (e : TraceEntry) : Register κ :=
  { r with given := fun ref p => r.given ref p ∨ p ∈ handedTo ref e }

/-- The entry of a mark, where no two entries have the same. -/
theorem CreateBatch.nsOf_of_mem {batch : CreateBatch} (distinct : (batch.map (·.1)).Nodup)
    {mark : CreateMark} {input : SeriesInput} (inside : (mark, input) ∈ batch) :
    batch.nsOf mark = input.ns := by
  have found : batch.find? (·.1 = mark) = some (mark, input) := by
    induction batch with
    | nil => cases inside
    | cons entry rest ih =>
      rw [List.map_cons, List.nodup_cons] at distinct
      rcases List.mem_cons.mp inside with rfl | later
      · simp
      · rw [List.find?_cons_of_neg]
        · exact ih distinct.2 later
        · intro same
          exact distinct.1 (List.mem_map.mpr ⟨_, later, (of_decide_eq_true same).symm⟩)
  rw [nsOf, found]
  rfl

theorem uses_of_touches {ref : SeriesRef} {e : TraceEntry} (h : touches ref e = true) :
    Uses e.1 ref := by
  unfold touches at h
  split at h
  · exact (of_decide_eq_true h :)
  · exact (of_decide_eq_true h :)
  · exact (of_decide_eq_true h :)
  · cases h

/-- An entry that answers a failure touches no series, unless counts were reported wrong. -/
theorem touches_error {ref : SeriesRef} {v : Visit} {e : Error}
    (h : touches ref (v, .error e) = true) :
    ∃ expected stored, e = .internal (.writeCount expected stored) := by
  unfold touches at h
  split at h
  · next same => cases same
  · next same =>
    obtain ⟨_, rfl⟩ := Prod.mk.inj same |>.imp_right Except.error.inj
    exact ⟨_, _, rfl⟩
  · next same => cases same
  · cases h

theorem Remote.Uses.unique {v : Visit} {ref ref' : SeriesRef} (h : Uses v ref)
    (h' : Uses v ref') : ref = ref' := by
  obtain ⟨time, call⟩ := v
  cases call with
  | write r req draws times values => exact Eq.trans (Eq.symm h) h'
  | read r window => exact Eq.trans (Eq.symm h) h'
  | _ => cases h

theorem Remote.Uses.issuedBy_eq {e : TraceEntry} {ref : SeriesRef} (h : Uses e.1 ref) :
    issuedBy e = [] := by
  obtain ⟨⟨time, call⟩, answer⟩ := e
  cases call with
  | write r req draws times values => rfl
  | read r window => rfl
  | _ => cases h

/-- An entry that uses a series removes it only if it is found expired. -/
theorem Remote.Uses.removes {e : TraceEntry} {ref ref' : SeriesRef} (h : Uses e.1 ref)
    (removed : removes ref' e = true) : ref' = ref ∧ e.2 = .error .seriesExpired := by
  obtain ⟨⟨time, call⟩, answer⟩ := e
  cases call with
  | write r req draws times values =>
    cases answer with
    | ok a => cases removed
    | error e =>
      obtain ⟨expired, same⟩ : e = .seriesExpired ∧ r = ref' := by
        simpa [SeriesStorage.removes] using removed
      exact ⟨same.symm.trans h, congrArg _ expired⟩
  | read r window =>
    cases answer with
    | ok a => cases removed
    | error e =>
      obtain ⟨expired, same⟩ : e = .seriesExpired ∧ r = ref' := by
        simpa [SeriesStorage.removes] using removed
      exact ⟨same.symm.trans h, congrArg _ expired⟩
  | _ => cases h

namespace Step

variable {κ : Type} {ident : SeriesRef → κ} {r r' : Register κ} {e : TraceEntry}

/-- An entry that is about no series. -/
theorem quiet (known : ∀ ref, r.has ref → r.spent (ident ref)) (issues : issuedBy e = [])
    (removes : ∀ ref, removes ref e = false) (uses : ∀ ref, ¬ Uses e.1 ref) :
    Step ident r (r.after e) e where
  known := known
  issued := by rw [issues]; exact List.nodup_nil
  unspent := by rw [issues]; exact nofun
  spends := fun _ spent => spent
  stays := fun _ _ absent => absent
  appears := fun _ _ => Or.inl
  removed := fun ref removed => absurd ((removes ref).symm.trans removed) nofun
  used := fun ref touched => absurd (uses_of_touches touched) (uses ref)
  unknown := fun ref _ _ used => absurd used (uses ref)
  given := fun _ _ => Iff.rfl
  shown := fun time ref window points same => absurd (by subst same; exact rfl) (uses ref)

/-- Series come in under ids that are new. -/
theorem creation {time : Instant} {chances : LockChances} {batch : CreateBatch}
    {answer : Except Error Answer} (entry : e = (⟨time, .create chances batch⟩, answer))
    (known : ∀ ref, r.has ref → r.spent (ident ref))
    (issued : ((issuedBy e).map ident).Nodup)
    (unspent : ∀ ref ∈ issuedBy e, ¬ r.spent (ident ref) ∧ r'.spent (ident ref))
    (spends : ∀ k, r.spent k → r'.spent k)
    (stays : ∀ ref, r.spent (ident ref) → ¬ r.has ref → ¬ r'.has ref)
    (appears : conceals e = false → ∀ ref, r'.has ref → r.has ref ∨ ref ∈ issuedBy e)
    (given : r'.given = (r.after e).given) : Step ident r r' e where
  known := known
  issued := issued
  unspent := unspent
  spends := spends
  stays := stays
  appears := appears
  removed := fun ref removed => by subst entry; cases removed
  used := fun ref touched => by subst entry; cases touched
  unknown := fun ref _ _ uses => by subst entry; cases uses
  given := fun ref p => by rw [given]; exact Iff.rfl
  shown := fun _ _ _ _ same => by subst entry; cases same

/-- Series are removed, and no others come. -/
theorem removal (refs : List SeriesRef) (known : ∀ ref, r.has ref → r.spent (ident ref))
    (issues : issuedBy e = []) (there : ∀ ref ∈ refs, r.has ref)
    (removes : ∀ ref, removes ref e = true → ref ∈ refs)
    (uses : ∀ ref, Uses e.1 ref → r.has ref ∧ e.2 = .error .seriesExpired)
    (spends : ∀ k, r.spent k → r'.spent k) (left : ∀ ref, r'.has ref → r.has ref ∧ ref ∉ refs)
    (given : r'.given = (r.after e).given) : Step ident r r' e where
  known := known
  issued := by rw [issues]; exact List.nodup_nil
  unspent := by rw [issues]; exact nofun
  spends := spends
  stays := fun ref _ absent back => absent (left ref back).1
  appears := fun _ ref stays => Or.inl (left ref stays).1
  removed := fun ref removed => ⟨spends _ (known ref (there ref (removes ref removed))),
    fun back => (left ref back).2 (removes ref removed)⟩
  used := fun ref touched => (uses ref (uses_of_touches touched)).1
  unknown := fun ref _ absent used => absurd (uses ref used).1 absent
  given := fun ref p => by rw [given]; exact Iff.rfl
  shown := fun time ref window points same => by
    subst same
    exact absurd (uses ref rfl).2 nofun

/-- A series is not there, or it is there and its points are shown. -/
theorem use {ref : SeriesRef} (uses : Uses e.1 ref)
    (known : ∀ ref, r.has ref → r.spent (ident ref))
    (lives : e.2 ≠ .error .seriesExpired)
    (found : r.has ref ∨ (touches ref e = false ∧
      (r.spent (ident ref) → e.2 = .error .metadataNotFound)))
    (shown : ∀ points, e.2 = .ok (.points points) →
      ∀ p ∈ points, ∃ given, r.given ref given ∧ p.ShowsGiven given) :
    Step ident r (r.after e) e where
  known := known
  issued := by rw [uses.issuedBy_eq]; exact List.nodup_nil
  unspent := by rw [uses.issuedBy_eq]; exact nofun
  spends := fun _ spent => spent
  stays := fun _ _ absent => absent
  appears := fun _ _ => Or.inl
  removed := fun ref' removed => absurd (uses.removes removed).2 lives
  used := by
    intro ref' touched
    obtain rfl := uses.unique (uses_of_touches touched)
    exact found.resolve_right fun missing => absurd (missing.1.symm.trans touched) nofun
  unknown := by
    intro ref' spent absent used
    obtain rfl := uses.unique used
    exact (found.resolve_left absent).2 spent
  given := fun _ _ => Iff.rfl
  shown := by
    rintro time ref' window points rfl
    obtain rfl := uses.unique rfl
    exact shown points rfl

/-- A series is not found. -/
theorem missing {ref : SeriesRef} (uses : Uses e.1 ref)
    (known : ∀ ref, r.has ref → r.spent (ident ref)) (absent : e.2 = .error .metadataNotFound) :
    Step ident r (r.after e) e := by
  obtain ⟨v, answer⟩ := e
  subst absent
  have untouched : touches ref (v, .error .metadataNotFound) = false := by
    refine Bool.eq_false_iff.mpr fun touched => ?_
    obtain ⟨_, _, impossible⟩ := touches_error touched
    cases impossible
  exact .use uses known nofun (Or.inr ⟨untouched, fun _ => rfl⟩) nofun

end Step

/-! ### Steps in a row -/

/-- Steps one after the other. -/
inductive History {κ : Type} (ident : SeriesRef → κ) : Register κ → Trace → Register κ → Prop
  | nil (r : Register κ) : History ident r [] r
  | cons {r r' last : Register κ} {e : TraceEntry} {rest : Trace} :
      Step ident r r' e → History ident r' rest last → History ident r (e :: rest) last

namespace History

variable {κ : Type} {ident : SeriesRef → κ} {r last : Register κ} {trace : Trace}

theorem spends (h : History ident r trace last) {k : κ} (spent : r.spent k) : last.spent k := by
  induction h with
  | nil r => exact spent
  | cons step _ ih => exact ih (step.spends k spent)

/-- A history up to an entry, the step of the entry, and the history behind it. -/
theorem split {before after : Trace} {e : TraceEntry}
    (h : History ident r (before ++ e :: after) last) :
    ∃ mid mid', History ident r before mid ∧ Step ident mid mid' e ∧
      History ident mid' after last := by
  induction before generalizing r with
  | nil =>
    cases h with
    | cons step rest => exact ⟨r, _, .nil r, step, rest⟩
  | cons first before ih =>
    cases h with
    | cons step rest =>
      obtain ⟨mid, mid', earlier, here, later⟩ := ih rest
      exact ⟨mid, mid', .cons step earlier, here, later⟩

/-- Whatever is issued was not spent before. -/
theorem unspent (h : History ident r trace last) :
    ∀ ref ∈ trace.flatMap issuedBy, ¬ r.spent (ident ref) := by
  induction h with
  | nil r => exact nofun
  | cons step _ ih =>
    intro ref inside spent
    rcases List.mem_append.mp inside with now | later
    · exact (step.unspent ref now).1 spent
    · exact ih ref later (step.spends _ spent)

/-- **No id is issued twice.** -/
theorem nodup (h : History ident r trace last) : ((trace.flatMap issuedBy).map ident).Nodup := by
  induction h with
  | nil r => exact List.nodup_nil
  | cons step rest ih =>
    rw [List.flatMap_cons, List.map_append, List.nodup_append]
    refine ⟨step.issued, ih, fun k now k' later same => ?_⟩
    subst same
    obtain ⟨ref, issued, rfl⟩ := List.mem_map.mp now
    obtain ⟨ref', issued', same⟩ := List.mem_map.mp later
    refine rest.unspent ref' issued' ?_
    rw [same]
    exact (step.unspent ref issued).2

/-- A series of a spent id that is not there is not used with success. -/
theorem unknown (h : History ident r trace last) {ref : SeriesRef} (spent : r.spent (ident ref))
    (absent : ¬ r.has ref) : ∀ e ∈ trace, Uses e.1 ref → e.2 = .error .metadataNotFound := by
  induction h with
  | nil r => exact fun e inside => absurd inside List.not_mem_nil
  | cons step _ ih =>
    intro e inside uses
    rcases List.mem_cons.mp inside with rfl | inside
    · exact step.unknown ref spent absent uses
    · exact ih (step.spends _ spent) (step.stays ref spent absent) e inside uses

/-- What was touched has a spent id. -/
theorem touched (h : History ident r trace last) {ref : SeriesRef} {e : TraceEntry}
    (inside : e ∈ trace) (touched : touches ref e = true) : last.spent (ident ref) := by
  induction h with
  | nil r => cases inside
  | cons step rest ih =>
    rcases List.mem_cons.mp inside with rfl | inside
    · exact rest.spends (step.spends _ (step.known ref (step.used ref touched)))
    · exact ih inside

/-- A series that is there was there from the beginning, or its id was issued. -/
theorem origin (h : History ident r trace last) (told : ∀ e ∈ trace, conceals e = false)
    {ref : SeriesRef} (there : last.has ref) : r.has ref ∨ ref ∈ trace.flatMap issuedBy := by
  induction h with
  | nil r => exact Or.inl there
  | cons step _ ih =>
    rw [List.flatMap_cons, List.mem_append]
    rcases ih (fun e inside => told e (List.mem_cons_of_mem _ inside)) there with before | issued
    · exact (step.appears (told _ List.mem_cons_self) ref before).imp_right Or.inl
    · exact Or.inr (Or.inr issued)

theorem given_iff (h : History ident r trace last) (ref : SeriesRef) (p : AcceptedPoint) :
    last.given ref p ↔ r.given ref p ∨ ∃ e ∈ trace, p ∈ handedTo ref e := by
  induction h with
  | nil r => simp
  | cons step _ ih => simp only [ih, step.given, List.mem_cons, exists_eq_or_imp, or_assoc]

/-- **Ids keep their meaning** throughout a history that begins with nothing. -/
theorem lifetimes (h : History ident r trace last) (empty : ∀ ref, ¬ r.has ref)
    (fresh : ∀ ref p, ¬ r.given ref p) : Lifetimes trace where
  unborn := by
    rintro before e after rfl ref issued e' inside
    obtain ⟨mid, mid', earlier, step, _⟩ := h.split
    refine Bool.eq_false_iff.mpr fun touched => ?_
    exact (step.unspent ref issued).1 (earlier.touched inside touched)
  born := by
    rintro before e after rfl told ref touched
    obtain ⟨mid, mid', earlier, step, _⟩ := h.split
    exact (earlier.origin told (step.used ref touched)).resolve_left (empty ref)
  gone := by
    rintro before e after rfl ref removed
    obtain ⟨mid, mid', _, step, later⟩ := h.split
    obtain ⟨spent, absent⟩ := step.removed ref removed
    exact later.unknown spent absent
  sources := by
    rintro before time ref window points after rfl p inside
    obtain ⟨mid, mid', earlier, step, _⟩ := h.split
    obtain ⟨given, known, shows⟩ := step.shown time ref window points rfl p inside
    obtain ⟨e, he, handed⟩ :=
      ((earlier.given_iff ref given).mp known).resolve_left (fresh ref given)
    exact ⟨e, he, given, handed, shows⟩

end History

end SeriesStorage
