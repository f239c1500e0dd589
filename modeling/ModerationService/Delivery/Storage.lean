import ModerationService.Delivery.Guarantees
import ModerationService.Repository.Table

/-!
# Storage — the database of a service that may be killed

The service on the request topic, as in `Delivery`, with the database behind its repository.  While
`SaveModerationResult` is under way the database executes its operations one after the other, and the
consumer thread waits for it.  With the process goes the connection, and the database then aborts the
transaction that is open.

* `table_sound`: the table only grows, by rows of flagged messages;
* `table_complete`: a flagged message that was processed to its end has a row, or a log line that
  says that it may have none.
-/

namespace ModerationService
namespace Storage

open Library Library.Machine Library.LogConsumer Library.Transaction Kafka.KafkaConsumer Service Intake
  Delivery Repository

/-! ## The machine -/

structure State where
  delivery : Delivery.State
  store : Store Row
  /-- what the database has still to execute for the record that is being saved -/
  transaction : List (Op Row)

def init (table : List Row) : State where
  delivery := Delivery.init
  store := Store.settled table
  transaction := []

/-- The record that `ProcessMessage` saves next, and what it is answered. -/
def State.saving (s : State) : Option (Answers × ModerationRecord) :=
  match s.delivery.broker.inFlight with
  | some (delivery, .saveModerationResult record :: _) => some (delivery.answer, record)
  | _ => none

/-- The consumer thread is in `SaveModerationResult`, or calls it next. -/
def State.blocks (s : State) : Delivery.Action → Bool
  | .consume _ | .finish => !s.transaction.isEmpty
  | .proceed => !s.transaction.isEmpty || s.saving.isSome
  | _ => false

inductive Action where
  | delivery (a : Delivery.Action)
  /-- `SaveModerationResult` is called -/
  | save (db : DbAnswers)
  /-- the database executes an operation -/
  | database

def step (d : Deployment) (repository : ModerationRepository) (s : State) : Action → Option State
  | .delivery .restart =>
      (Delivery.step d s.delivery .restart).map (fun delivery =>
        { delivery := delivery, store := s.store.apply .abort, transaction := [] })
  | .delivery a =>
      if s.blocks a then
        none
      else
        (Delivery.step d s.delivery a).map (fun delivery => { s with delivery := delivery })
  | .save db =>
      match s.saving with
      | some (answers, record) =>
          let p := saveModerationResult repository db record
          -- what `SaveResultToDatabase` gets is what the repository returns
          if s.transaction = [] ∧ answers.save = outcome p then
            (Delivery.step d s.delivery .proceed).map (fun delivery =>
              { s with
                delivery := delivery
                transaction := ops p })
          else
            none
      | none => none
  | .database =>
      match s.transaction with
      | op :: rest =>
          some { s with
            store := s.store.apply op
            transaction := rest }
      | [] => none

variable {d : Deployment} {repository : ModerationRepository} {table : List Row} {s s' : State}

/-! ## What a step does -/

theorem step_proceed {t t' : Delivery.State} (h : Delivery.step d t .proceed = some t') :
    ∃ delivery e pending, t.broker.inFlight = some (delivery, e :: pending) ∧
      t'.broker.inFlight = some ({ delivery with emitted := delivery.emitted ++ [e] }, pending) ∧
      t'.broker.ended = t.broker.ended ∧ t'.broker.output = t.broker.output ++ [e] := by
  rcases Option.map_eq_some_iff.1 h with ⟨broker, hbroker, rfl⟩
  rcases step_emit hbroker with ⟨delivery, e, pending, hflight, rfl⟩
  exact ⟨delivery, e, pending, hflight, rfl, rfl, rfl⟩

/-- What a step does to the deliveries: nothing, or the consumer takes up a message, goes on with it
or finishes it. -/
theorem delivery_cases {t t' : Delivery.State} {a : Delivery.Action} (ha : a ≠ .restart)
    (h : Delivery.step d t a = some t') :
    (t'.broker.inFlight = t.broker.inFlight ∧ t'.broker.ended = t.broker.ended ∧
      t'.broker.output = t.broker.output) ∨
    (∃ delivery pending, t'.broker.inFlight = some (delivery, pending) ∧ delivery.emitted = [] ∧
      t'.broker.ended = t.broker.ended ∧ t'.broker.output = t.broker.output) ∨
    (a = .proceed ∧ ∃ delivery e pending, t.broker.inFlight = some (delivery, e :: pending) ∧
      t'.broker.inFlight = some ({ delivery with emitted := delivery.emitted ++ [e] }, pending) ∧
      t'.broker.ended = t.broker.ended ∧ t'.broker.output = t.broker.output ++ [e]) ∨
    (a = .finish ∧ ∃ delivery, t.broker.inFlight = some (delivery, []) ∧
      t'.broker.inFlight = none ∧
      t'.broker.ended = t.broker.ended ++ [{ delivery with completed := true }] ∧
      t'.broker.output = t.broker.output) := by
  cases a with
  | outside key payload =>
      cases h
      exact Or.inl ⟨rfl, rfl, rfl⟩
  | call request answers =>
      simp only [Delivery.step] at h
      split at h
      · cases h
        exact Or.inl ⟨rfl, rfl, rfl⟩
      · cases h
  | arrive i =>
      rcases Option.map_eq_some_iff.1 h with ⟨entry, _, rfl⟩
      exact Or.inl ⟨rfl, rfl, rfl⟩
  | consume answers =>
      rcases Option.map_eq_some_iff.1 h with ⟨broker, hbroker, rfl⟩
      rcases step_deliver hbroker with ⟨_, entry, _, rfl⟩
      exact Or.inr (Or.inl ⟨_, _, rfl, rfl, rfl, rfl⟩)
  | proceed => exact Or.inr (Or.inr (Or.inl ⟨rfl, step_proceed h⟩))
  | finish =>
      rcases Option.map_eq_some_iff.1 h with ⟨broker, hbroker, rfl⟩
      rcases step_finish hbroker with ⟨delivery, hflight, rfl⟩
      exact Or.inr (Or.inr (Or.inr ⟨rfl, delivery, hflight, rfl, rfl, rfl⟩))
  | commit offset =>
      rcases Option.map_eq_some_iff.1 h with ⟨broker, hbroker, rfl⟩
      rcases step_commit hbroker with ⟨_, rfl⟩
      exact Or.inl ⟨rfl, rfl, rfl⟩
  | restart => exact absurd rfl ha

/-- The process is killed, the consumer goes on with something else than a record, a record is saved,
or the database executes an operation. -/
theorem step_cases {a : Action} (h : step d repository s a = some s') :
    (Delivery.step d s.delivery .restart = some s'.delivery ∧ s'.store = s.store.apply .abort ∧
      s'.transaction = []) ∨
    (∃ b, b ≠ .restart ∧ s.blocks b = false ∧ Delivery.step d s.delivery b = some s'.delivery ∧
      s'.store = s.store ∧ s'.transaction = s.transaction) ∨
    (∃ db answers record, s.saving = some (answers, record) ∧ s.transaction = [] ∧
      answers.save = outcome (saveModerationResult repository db record) ∧
      Delivery.step d s.delivery .proceed = some s'.delivery ∧ s'.store = s.store ∧
      s'.transaction = ops (saveModerationResult repository db record)) ∨
    (∃ op, s.transaction = op :: s'.transaction ∧ s'.delivery = s.delivery ∧
      s'.store = s.store.apply op) := by
  cases a with
  | delivery b =>
      by_cases hb : b = .restart
      · subst hb
        simp only [step, Option.map_eq_some_iff] at h
        rcases h with ⟨delivery, hdelivery, rfl⟩
        exact Or.inl ⟨hdelivery, rfl, rfl⟩
      · right
        left
        simp only [step, Option.ite_none_left_eq_some, Option.map_eq_some_iff] at h
        rcases h with ⟨hblocks, delivery, hdelivery, rfl⟩
        exact ⟨b, hb, by simpa using hblocks, hdelivery, rfl, rfl⟩
  | save db =>
      right
      right
      left
      simp only [step] at h
      split at h
      · next answers record hsaving =>
          rcases Option.ite_none_right_eq_some.1 h with ⟨⟨hnone, hanswer⟩, hproceed⟩
          rcases Option.map_eq_some_iff.1 hproceed with ⟨delivery, hdelivery, rfl⟩
          exact ⟨db, answers, record, hsaving, hnone, hanswer, hdelivery, rfl, rfl⟩
      · cases h
  | database =>
      right
      right
      right
      simp only [step] at h
      split at h
      · next op rest hrest =>
          cases h
          exact ⟨op, hrest, rfl, rfl⟩
      · cases h

/-- The deliveries are those of the service. -/
theorem run_delivery {as : List Action} (h : run (step d repository) (init table) as = some s) :
    ∃ bs, run (Delivery.step d) Delivery.init bs = some s.delivery := by
  refine run_invariant (I := fun s => ∃ bs, run (Delivery.step d) Delivery.init bs =
    some s.delivery) ?_ ⟨[], rfl⟩ h
  rintro s a s' ⟨bs, hbs⟩ hstep
  -- a step of the database is none of the service
  have hlast : ∀ b, Delivery.step d s.delivery b = some s'.delivery →
      ∃ bs, run (Delivery.step d) Delivery.init bs = some s'.delivery :=
    fun b hb => ⟨bs ++ [b], run_concat_eq_some.2 ⟨s.delivery, hbs, hb⟩⟩
  rcases step_cases hstep with ⟨hb, _⟩ | ⟨b, _, _, hb, _⟩ | ⟨_, _, _, _, _, _, hb, _⟩ |
    ⟨_, _, hsame, _⟩
  · exact hlast _ hb
  · exact hlast b hb
  · exact hlast _ hb
  · exact ⟨bs, hsame ▸ hbs⟩

/-! ## The invariant -/

/-- The records that the repository has been asked to save. -/
def asked (output : List Event) : List ModerationRecord :=
  (output.filterMap action).filterMap Intake.Action.record

theorem asked_append (output output' : List Event) :
    asked (output ++ output') = asked output ++ asked output' := by
  simp [asked]

/-- What the service has been told of a record of the delivery is true of the rows. -/
def Recorded (delivery : LogConsumer.Delivery Answers Event) (rows : List Row) : Prop :=
  ∀ record, .saveModerationResult record ∈ delivery.emitted →
    ∃ saved, delivery.answer.save = .returns saved ∧ (saved = true → params record ∈ rows)

theorem Recorded.mono {delivery : LogConsumer.Delivery Answers Event} {rows rows' : List Row}
    (h : Recorded delivery rows) (hgrows : rows <+: rows') : Recorded delivery rows' := by
  intro record hrecord
  rcases h record hrecord with ⟨saved, hanswer, hrow⟩
  exact ⟨saved, hanswer, fun hsaved => hgrows.subset (hrow hsaved)⟩

theorem Recorded.emit {delivery : LogConsumer.Delivery Answers Event} {rows : List Row} {e : Event}
    (h : Recorded delivery rows)
    (he : ∀ record, e = .saveModerationResult record →
      ∃ saved, delivery.answer.save = .returns saved ∧ (saved = true → params record ∈ rows)) :
    Recorded { delivery with emitted := delivery.emitted ++ [e] } rows := by
  intro record hrecord
  rcases List.mem_append.1 hrecord with hold | hnew
  · exact h record hold
  · exact he record (List.mem_singleton.1 hnew).symm

/-- The database once it has executed what is still to come. -/
def State.settled (s : State) : Store Row :=
  s.store.replay s.transaction

structure Consistent (table : List Row) (s : State) : Prop where
  settles : s.settled.pending = none
  grows : table <+: s.store.rows
  made : ∃ made : List ModerationRecord, made.Sublist (asked s.delivery.broker.output) ∧
    s.settled.rows = table ++ made.map params
  inFlight : ∀ delivery pending, s.delivery.broker.inFlight = some (delivery, pending) →
    Recorded delivery s.settled.rows
  ended : ∀ delivery ∈ s.delivery.broker.ended, delivery.completed = true →
    Recorded delivery s.store.rows

theorem consistent_init (table : List Row) : Consistent table (init table) where
  settles := rfl
  grows := List.prefix_refl table
  made := ⟨[], List.nil_sublist _, by simp [init, State.settled, Store.replay, Store.settled]⟩
  inFlight := by
    simp [init, Delivery.init, LogConsumer.init]
  ended := by
    simp [init, Delivery.init, LogConsumer.init]

/-- The rows that are there are the first of those that are to come. -/
theorem Consistent.rows (hs : Consistent table s) :
    ∃ made : List ModerationRecord, made.Sublist (asked s.delivery.broker.output) ∧
      s.store.rows = table ++ made.map params := by
  rcases hs.made with ⟨made, hmade, hsettled⟩
  rcases hs.grows with ⟨rows, hrows⟩
  -- what the database still has to execute can only add rows at the end
  have hprefix : s.store.rows <+: s.settled.rows := Store.rows_replay s.store s.transaction
  rw [hsettled, ← hrows] at hprefix
  have htake := List.prefix_iff_eq_take.1 ((List.prefix_append_right_inj table).1 hprefix)
  refine ⟨made.take rows.length, (List.take_sublist _ _).trans hmade, ?_⟩
  rw [← hrows, List.map_take, ← htake]

/-- The open transaction is aborted, and what was under way does not count as processed. -/
theorem consistent_restart (hs : Consistent table s)
    (hflights : ∀ delivery ∈ s.delivery.broker.cut, delivery.completed = false)
    (hdelivery : Delivery.step d s.delivery .restart = some s'.delivery)
    (hstore : s'.store = s.store.apply .abort) (hnone : s'.transaction = []) :
    Consistent table s' := by
  simp only [Delivery.step, Option.map_eq_some_iff, LogConsumer.step, Option.some.injEq] at hdelivery
  rcases hdelivery with ⟨broker, rfl, hs'⟩
  have hsettled : s'.settled = Store.settled s.store.rows := by
    rw [State.settled, hstore, hnone]
    rfl
  have hrows : s'.store.rows = s.store.rows := by
    rw [hstore]
    rfl
  refine ⟨?_, ?_, ?_, ?_, ?_⟩
  · rw [hsettled]
    rfl
  · rw [hrows]
    exact hs.grows
  · rcases hs.rows with ⟨made, hmade, hmadeRows⟩
    refine ⟨made, ?_, ?_⟩
    · rw [← hs']
      exact hmade
    · rw [hsettled]
      exact hmadeRows
  · intro delivery pending hflight
    rw [← hs'] at hflight
    cases hflight
  · intro delivery hmem hcompleted
    rw [hrows]
    rw [← hs'] at hmem
    rcases List.mem_append.1 hmem with hended | hcut
    · exact hs.ended delivery hended hcompleted
    -- the delivery that the restart cut
    · rw [hflights delivery hcut] at hcompleted
      exact absurd hcompleted Bool.false_ne_true

/-- The database executes what was to come. -/
theorem consistent_database (hs : Consistent table s) {op : Op Row}
    (hnext : s.transaction = op :: s'.transaction) (hsame : s'.delivery = s.delivery)
    (hstore : s'.store = s.store.apply op) : Consistent table s' := by
  have hsettled : s'.settled = s.settled := by
    rw [State.settled, State.settled, hnext, hstore]
    rfl
  have hgrows : s.store.rows <+: s'.store.rows := by
    rw [hstore]
    exact Store.rows_apply s.store op
  refine ⟨?_, hs.grows.trans hgrows, ?_, ?_, ?_⟩
  · rw [hsettled]
    exact hs.settles
  · rw [hsettled, hsame]
    exact hs.made
  · rw [hsettled, hsame]
    exact hs.inFlight
  · rw [hsame]
    intro delivery hmem hcompleted
    exact (hs.ended delivery hmem hcompleted).mono hgrows

theorem saving_eq_some {answers : Answers} {record : ModerationRecord}
    (h : s.saving = some (answers, record)) :
    ∃ delivery pending, s.delivery.broker.inFlight =
      some (delivery, .saveModerationResult record :: pending) ∧ delivery.answer = answers := by
  unfold State.saving at h
  split at h
  · next delivery record' pending hflight =>
      cases h
      exact ⟨delivery, pending, hflight, rfl⟩
  · cases h

/-- A transaction is to come that stores the row of the record, if the service is told so. -/
theorem consistent_save (hs : Consistent table s) {db : DbAnswers} {answers : Answers}
    {record : ModerationRecord} (hsaving : s.saving = some (answers, record))
    (hnone : s.transaction = [])
    (hanswer : answers.save = outcome (saveModerationResult repository db record))
    (hdelivery : Delivery.step d s.delivery .proceed = some s'.delivery)
    (hstore : s'.store = s.store)
    (hops : s'.transaction = ops (saveModerationResult repository db record)) :
    Consistent table s' := by
  rcases saveModerationResult_spec repository db record with ⟨hresult, hwrites⟩
  -- nothing else is under way in the database
  have hquiet : s.settled = s.store := by
    rw [State.settled, hnone]
    rfl
  have hopen : s.store = Store.settled s.store.rows := by
    refine Store.eq_settled ?_
    rw [← hquiet]
    exact hs.settles
  have hsettled : s'.settled = Store.settled (s.store.rows ++
      if stored repository db then [params record] else []) := by
    rw [State.settled, hstore, hops, hopen]
    exact hwrites s.store.rows
  have hgrows : s.settled.rows <+: s'.settled.rows := by
    rw [hsettled, hquiet]
    exact List.prefix_append _ _
  rcases saving_eq_some hsaving with ⟨delivery, pending, hflight, hanswers⟩
  rcases step_proceed hdelivery with ⟨delivery', e, pending', hflight', hnext, hended, houtput⟩
  obtain ⟨rfl, rfl, rfl⟩ : delivery' = delivery ∧ e = .saveModerationResult record ∧
      pending' = pending := by
    rw [hflight] at hflight'
    cases hflight'
    exact ⟨rfl, rfl, rfl⟩
  refine ⟨?_, ?_, ?_, ?_, ?_⟩
  · rw [hsettled]
    rfl
  · rw [hstore]
    exact hs.grows
  · rcases hs.rows with ⟨made, hmade, hmadeRows⟩
    -- the record has been asked for just now, and its row is the last to come
    refine ⟨made ++ if stored repository db then [record] else [], ?_, ?_⟩
    · rw [houtput, asked_append]
      refine hmade.append ?_
      split
      · exact List.Sublist.refl _
      · exact List.nil_sublist _
    · rw [hsettled]
      show s.store.rows ++ _ = _
      rw [hmadeRows]
      split <;> simp
  · intro delivery'' pending'' hflight''
    rw [hnext] at hflight''
    cases hflight''
    refine ((hs.inFlight _ _ hflight).mono hgrows).emit ?_
    rintro record' hrecord
    cases hrecord
    -- the service is told what the repository returns
    refine ⟨saved repository db, ?_, ?_⟩
    · rw [hanswers, hanswer, outcome, hresult]
    · intro hsaved
      rw [hsettled]
      show params record ∈ s.store.rows ++ _
      simp [stored_of_saved hsaved]
  · rw [hended, hstore]
    exact hs.ended

/-- The consumer goes on with something else than a record, or something happens outside. -/
theorem consistent_delivery (hs : Consistent table s) {b : Delivery.Action} (hb : b ≠ .restart)
    (hblocks : s.blocks b = false) (hdelivery : Delivery.step d s.delivery b = some s'.delivery)
    (hstore : s'.store = s.store) (hsame : s'.transaction = s.transaction) :
    Consistent table s' := by
  have hsettled : s'.settled = s.settled := by
    rw [State.settled, State.settled, hstore, hsame]
  rcases hs with ⟨hsettles, hgrows, hmade, hflights, hended⟩
  rw [← hsettled] at hsettles hmade hflights
  rw [← hstore] at hgrows hended
  rcases delivery_cases hb hdelivery with ⟨hflight, hsameEnded, houtput⟩ |
    ⟨delivery, pending, hflight, hfresh, hsameEnded, houtput⟩ |
    ⟨rfl, delivery, e, pending, hflight, hnext, hsameEnded, houtput⟩ |
    ⟨rfl, delivery, hflight, hnext, hmore, houtput⟩
  · -- outside, or a commit
    refine ⟨hsettles, hgrows, ?_, ?_, ?_⟩
    · rw [houtput]
      exact hmade
    · rw [hflight]
      exact hflights
    · rw [hsameEnded]
      exact hended
  · -- a message has been taken up, for which nothing has been asked so far
    refine ⟨hsettles, hgrows, ?_, ?_, ?_⟩
    · rw [houtput]
      exact hmade
    · intro delivery' pending' hflight' record hrecord
      rw [hflight] at hflight'
      cases hflight'
      rw [hfresh] at hrecord
      cases hrecord
    · rw [hsameEnded]
      exact hended
  · -- the next event is not a record
    have he : ∀ record, e ≠ .saveModerationResult record := by
      rintro record rfl
      simp [State.blocks, State.saving, hflight] at hblocks
    refine ⟨hsettles, hgrows, ?_, ?_, ?_⟩
    · have hasked : asked s'.delivery.broker.output = asked s.delivery.broker.output := by
        rw [houtput, asked_append]
        cases e with
        | saveModerationResult record => exact absurd rfl (he record)
        | _ => simp [asked, action, Intake.Action.record]
      rw [hasked]
      exact hmade
    · intro delivery' pending' hflight'
      rw [hnext] at hflight'
      cases hflight'
      exact (hflights _ _ hflight).emit (fun record hrecord => absurd hrecord (he record))
    · rw [hsameEnded]
      exact hended
  · -- nothing is to come any more
    have hquiet : s'.settled = s'.store := by
      have hnone : s.transaction = [] := by
        simpa [State.blocks] using hblocks
      rw [State.settled, hsame, hnone]
      rfl
    refine ⟨hsettles, hgrows, ?_, ?_, ?_⟩
    · rw [houtput]
      exact hmade
    · intro delivery' pending' hflight'
      rw [hnext] at hflight'
      cases hflight'
    · intro delivery' hmem hcompleted
      rw [hmore] at hmem
      rcases List.mem_append.1 hmem with hold | hnew
      · exact hended delivery' hold hcompleted
      · obtain rfl := List.mem_singleton.1 hnew
        have hrecorded := hflights _ _ hflight
        rw [hquiet] at hrecorded
        exact hrecorded

theorem consistent_run {as : List Action} (h : run (step d repository) (init table) as = some s) :
    Consistent table s := by
  refine run_history (J := fun _ s => Consistent table s) (consistent_init table) ?_ h
  intro as s a s' hrun hs hstep
  rcases run_delivery hrun with ⟨bs, hbs⟩
  have hinv := reachable_inv hbs
  rcases step_cases hstep with ⟨hrestart, hstore, hnone⟩ | ⟨b, hb, hblocks, hdelivery, hstore, hsame⟩ |
    ⟨db, answers, record, hsaving, hnone, hanswer, hdelivery, hstore, hops⟩ |
    ⟨op, hnext, hsame, hstore⟩
  · refine consistent_restart hs ?_ hrestart hstore hnone
    intro delivery hcut
    have hmem : ∃ pending, s.delivery.broker.inFlight = some (delivery, pending) := by
      simpa [State.cut] using hcut
    rcases hmem with ⟨pending, hflight⟩
    exact (hinv.inFlight delivery pending hflight).2.1
  · exact consistent_delivery hs hb hblocks hdelivery hstore hsame
  · exact consistent_save hs hsaving hnone hanswer hdelivery hstore hops
  · exact consistent_database hs hnext hsame hstore

/-! ## The table -/

theorem step_rows {a : Action} (h : step d repository s a = some s') :
    s.store.rows <+: s'.store.rows := by
  rcases step_cases h with ⟨_, hstore, _⟩ | ⟨_, _, _, _, hstore, _⟩ |
    ⟨_, _, _, _, _, _, _, hstore, _⟩ | ⟨op, _, _, hstore⟩
  · rw [hstore]
    exact Store.rows_apply _ _
  · exact ⟨[], by rw [List.append_nil, hstore]⟩
  · exact ⟨[], by rw [List.append_nil, hstore]⟩
  · rw [hstore]
    exact Store.rows_apply _ _

theorem mem_asked {output : List Event} {record : ModerationRecord} :
    record ∈ asked output ↔ .saveModerationResult record ∈ output := by
  simp only [asked, List.mem_filterMap]
  constructor
  · rintro ⟨a, ⟨event, hevent, haction⟩, hrecord⟩
    cases event with
    | saveModerationResult record' =>
        cases haction
        cases hrecord
        exact hevent
    | sendResponseAsync response topic key =>
        cases haction
        cases hrecord
    | _ => cases haction
  · exact fun h => ⟨.save record, ⟨_, h, rfl⟩, rfl⟩

/-- Wherever the process was killed: what is in the table stays there, and what has come to it are
rows of flagged messages, at most one for each record that was asked for, in that order. -/
theorem table_sound {as : List Action} (h : run (step d repository) (init table) as = some s) :
    (∃ made : List ModerationRecord, made.Sublist (asked s.delivery.broker.output) ∧
      s.store.rows = table ++ made.map params ∧
      ∀ record ∈ made, RecordOfFlagged d s.delivery record) ∧
    (∀ bs t, run (step d repository) s bs = some t → s.store.rows <+: t.store.rows) := by
  refine ⟨?_, ?_⟩
  · rcases (consistent_run h).rows with ⟨made, hmade, hrows⟩
    rcases run_delivery h with ⟨bs, hbs⟩
    refine ⟨made, hmade, hrows, ?_⟩
    intro record hrecord
    exact (saves_follow_responses hbs).2 record (mem_asked.1 (hmade.subset hrecord))
  · intro bs t hrun
    exact run_invariant (I := fun t => s.store.rows <+: t.store.rows)
      (fun t a t' ht hstep => ht.trans (step_rows hstep)) (List.prefix_refl _) hrun

/-- The process is killed before the commit; the message is delivered again and gets its row. -/
def killedRun : List Action :=
  [.delivery (.outside none (SampleProtobuf.encodeRequest EndToEnd.sampleRequest)),
    .delivery (.consume EndToEnd.sampleAnswers), .delivery .proceed, .delivery .proceed,
    .save ⟨true, none, .ok 0, .committed⟩, .database, .database, .delivery .restart,
    .delivery (.consume EndToEnd.sampleAnswers), .delivery .proceed, .delivery .proceed,
    .save ⟨true, none, .ok 0, .committed⟩, .database, .database, .database, .delivery .finish]

theorem table_sound_killedRun :
    ∃ s, run (step sampleDeployment sampleRepository) (init []) killedRun = some s ∧
      s.store.rows.map Row.object_id = [0] ∧ (asked s.delivery.broker.output).length = 2 ∧
      ∃ made : List ModerationRecord, made.Sublist (asked s.delivery.broker.output) ∧
        s.store.rows = made.map params := by
  have hend : (run (step sampleDeployment sampleRepository) (init []) killedRun).map (fun s =>
      (s.store.rows.map Row.object_id, (asked s.delivery.broker.output).length)) = some ([0], 2) := by
    decide +kernel
  rcases Option.map_eq_some_iff.1 hend with ⟨s, hrun, hpair⟩
  rcases Prod.mk.inj hpair with ⟨hids, hasked⟩
  rcases (table_sound hrun).1 with ⟨made, hmade, hrows, _⟩
  exact ⟨s, hrun, hids, hasked, made, hmade, hrows⟩

/-- A flagged message of a live service that was processed to its end has its row in the table, or
the log says that the repository has not confirmed it. -/
theorem table_complete {as : List Action} (h : run (step d repository) (init table) as = some s)
    {delivery : LogConsumer.Delivery Answers Event} (hdelivery : delivery ∈ s.delivery.broker.ended)
    (hcompleted : delivery.completed = true) {entry : Entry}
    (hentry : s.delivery.broker.log[delivery.offset]? = some entry) {record : ModerationRecord}
    (hrecord : flaggedRecordOf d.pb d.icu (entry.poll delivery.answer) = some record)
    (halive : delivery.answer.serviceAlive = true) :
    params record ∈ s.store.rows ∨ saveResultFail ∈ delivery.emitted := by
  rcases run_delivery h with ⟨bs, hbs⟩
  have htrace : (consumeOnce d.pb d.icu d.consumer (entry.poll delivery.answer)).trace =
      delivery.emitted := by
    rcases (reachable_inv hbs).ended delivery hdelivery with ⟨rest, ⟨entry', hentry', heffects⟩, hrest⟩
    rw [hentry] at hentry'
    cases hentry'
    rw [hrest hcompleted, List.append_nil] at heffects
    exact heffects
  have hasked : Event.saveModerationResult record ∈ delivery.emitted := by
    have hrecords : asked delivery.emitted = [record] := by
      rw [← htrace, asked, (consumeOnce_ends d.pb d.icu (consumer_producer d) rfl _).observed,
        expected_record]
      simp [Entry.poll, halive, ← hrecord]
    exact mem_asked.1 (by simp [hrecords])
  rcases (consistent_run h).ended delivery hdelivery hcompleted record hasked with
    ⟨saved, hanswer, hrow⟩
  cases saved with
  | true => exact Or.inl (hrow rfl)
  | false =>
      right
      rw [← htrace]
      exact unsaved_reported d.pb d.icu (consumer_producer d) rfl hanswer halive hrecord

theorem table_complete_killedRun :
    ∃ s, run (step sampleDeployment sampleRepository) (init []) killedRun = some s ∧
      ∃ delivery ∈ s.delivery.broker.ended,
        params (recordOf 0 EndToEnd.sampleRequest 0) ∈ s.store.rows ∨
          saveResultFail ∈ delivery.emitted := by
  have hrun : ∃ s delivery entry,
      run (step sampleDeployment sampleRepository) (init []) killedRun = some s ∧
      s.delivery.broker.ended[1]? = some delivery ∧ delivery.completed = true ∧
      s.delivery.broker.log[delivery.offset]? = some entry ∧
      delivery.answer.serviceAlive = true ∧
      flaggedRecordOf sampleDeployment.pb sampleDeployment.icu (entry.poll delivery.answer) =
        some (recordOf 0 EndToEnd.sampleRequest 0) := by
    refine ⟨_, _, _, rfl, rfl, rfl, rfl, rfl, ?_⟩
    decide +kernel
  rcases hrun with ⟨s, delivery, entry, hs, hsecond, hcompleted, hentry, halive, hrecord⟩
  have hdelivery : delivery ∈ s.delivery.broker.ended := List.mem_of_getElem? hsecond
  exact ⟨s, hs, delivery, hdelivery,
    table_complete hs hdelivery hcompleted hentry hrecord halive⟩

end Storage
end ModerationService
