import LiveHighlight.Worker
import LiveHighlight.Proofs.Convergence
import LiveHighlight.Proofs.Rendering

-- What the senders of a queue can rely on, however they and the worker come between each other: the
-- requests are done in the order in which they were queued, and none that is waited for is cancelled.

namespace LiveHighlight

variable {σ : Type}

namespace Request

-- The text that a request leaves behind. A noted edit counts if it is accepted.
def leaves (x : Text) : Request σ → Text
  | .follow _ t => t
  | .edit e =>
    match (Document.ofText x).edit e with
    | .ok (document, _) => document.text
    | .error _ => x
  | .overwrite t => t
  | .exchange _ => x
  | .highlights t _ => t
  | .snapshot => x

def Fits (r : Request σ) : Prop := (r.command .never).Fits fun _ => True

def content (first : Text) (requests : List (Request σ)) : Text := requests.foldl leaves first

end Request

def Event.requests (events : List (Event σ)) : List (Request σ) :=
  events.filterMap fun
    | .send request => some request
    | _ => none

structure Served (σ : Type) where
  request : Request σ
  ticket : Nat
  cancelled : Cancellation

def Served.command (x : Served σ) : Command σ := x.request.command x.cancelled

theorem served_requests {served : List (Served σ)} {requests : List (Request σ)}
    (order : served.map (fun x => (x.request, x.ticket)) = requests.zipIdx) :
    served.map Served.request = requests ∧
      served.map Served.ticket = List.range' 0 requests.length := by
  have first := congrArg (List.map Prod.fst) order
  have second := congrArg (List.map Prod.snd) order
  rw [List.map_map, List.zipIdx_map_fst] at first
  rw [List.map_map, List.zipIdx_map_snd] at second
  exact ⟨first, second⟩

theorem served_at {served : List (Served σ)} {requests : List (Request σ)} {n : Nat}
    {request : Request σ} (order : served.map (fun x => (x.request, x.ticket)) = requests.zipIdx)
    (queued : requests[n]? = some request) :
    ∃ earlier x later, served = earlier ++ x :: later ∧ x.request = request ∧ x.ticket = n ∧
      earlier.map Served.request = requests.take n := by
  have paired : (served.map fun x => (x.request, x.ticket))[n]? = some (request, n) := by
    rw [order, List.getElem?_zipIdx, queued, Option.map_some, Nat.zero_add]
  rw [List.getElem?_map, Option.map_eq_some_iff] at paired
  obtain ⟨x, found, same⟩ := paired
  obtain ⟨within, here⟩ := List.getElem?_eq_some_iff.mp found
  obtain ⟨rfl, ticket⟩ := Prod.mk.inj same
  refine ⟨served.take n, x, served.drop (n + 1), ?_, rfl, ticket, ?_⟩
  · rw [← here, ← List.drop_eq_getElem_cons, List.take_append_drop]
  · rw [List.map_take, (served_requests order).1]

variable [Layer σ]

namespace Session

variable {s : Session σ}

theorem edit_leaves (agrees : s.Agrees) (e : Edit) (fits : e.Storable) :
    (Queue.step s (.edit e)).1.document = .ofText ((Request.edit e : Request σ).leaves s.text) := by
  have present := agrees.document
  simp only [Queue.step, Request.leaves]
  rw [← present]
  cases taken : s.document.edit e with
  | error refusal =>
    have refused : s.edit e = .error refusal := by rw [Session.edit, taken]
    rw [refused]
    exact present
  | ok parts =>
    obtain ⟨document, splice⟩ := parts
    obtain ⟨next, accepted, same⟩ := edit_accepted taken
    rw [accepted, ← same]
    exact (edit_agrees agrees fits accepted).document

theorem step_leaves (agrees : s.Agrees) (held : Text.size s.text < 0x8000000000000000)
    {r : Request σ} (fits : r.Fits) (cancelled : Cancellation) :
    (Queue.step s (r.command cancelled)).1.document = .ofText (r.leaves s.text) := by
  cases r with
  | follow e t => exact follow_document agrees fits t
  | edit e => exact edit_leaves agrees e fits
  | overwrite t => exact overwrite_document agrees held fits
  | exchange layer => exact agrees.document
  | highlights t wanted => exact pass_document agrees t wanted cancelled
  | snapshot => exact agrees.document

end Session

namespace Queue

variable {s : Session σ}

theorem drain_leaves (served : List (Served σ)) (agrees : s.Agrees)
    (fits : ∀ x ∈ served, x.request.Fits)
    (held : ∀ n, Text.size (Request.content s.text ((served.map Served.request).take n)) <
      0x8000000000000000) :
    (drain s (served.map Served.command)).1.document =
      .ofText (Request.content s.text (served.map Served.request)) := by
  induction served generalizing s with
  | nil => exact agrees.document
  | cons x rest ih =>
    have document : (step s x.command).1.document = .ofText (x.request.leaves s.text) :=
      Session.step_leaves agrees (held 0) (fits x (by simp)) x.cancelled
    have text : (step s x.command).1.text = x.request.leaves s.text :=
      congrArg Document.text document
    have agrees' : (step s x.command).1.Agrees := by
      unfold Session.Agrees
      rw [document]
      rfl
    have later := ih agrees' (fun y member => fits y (by simp [member])) fun n => by
      rw [text]
      exact held (n + 1)
    rw [text] at later
    exact later

end Queue

namespace Worker

variable {first : Session σ} {requests : List (Request σ)} {w : Worker σ}

def answered (s : Session σ) : List (Served σ) → List (Nat × Reply)
  | [] => []
  | x :: rest => ((Queue.step s x.command).2.map (x.ticket, ·)).toList ++
      answered (Queue.step s x.command).1 rest

theorem answered_append (s : Session σ) (a b : List (Served σ)) :
    answered s (a ++ b) =
      answered s a ++ answered (Queue.drain s (a.map Served.command)).1 b := by
  induction a generalizing s with
  | nil => rfl
  | cons x rest ih =>
    rw [List.cons_append, answered, answered, ih, List.append_assoc]
    rfl

theorem mem_answered {s : Session σ} {served : List (Served σ)} {a : Nat × Reply}
    (member : a ∈ answered s served) : ∃ x ∈ served, x.ticket = a.1 := by
  induction served generalizing s with
  | nil => cases member
  | cons x rest ih =>
    rcases List.mem_append.mp member with own | later
    · obtain ⟨reply, -, rfl⟩ := Option.map_eq_some_iff.mp (Option.mem_toList.mp own)
      exact ⟨x, by simp, rfl⟩
    · obtain ⟨y, held, same⟩ := ih later
      exact ⟨y, by simp [held], same⟩

inductive Standing (s : Session σ) : Phase → Session σ → List (Request σ × Nat) → Prop where
  | idle : Standing s .idle s []
  | current (ticket : Nat) (t : Text) (wanted : Span) :
      Standing s (.current ticket wanted) (s.catchUp t) [(.highlights t wanted, ticket)]
  | refreshed (ticket : Nat) (t : Text) (wanted : Span) :
      Standing s (.refreshed ticket wanted (s.catchUp t).refresh.2) (s.catchUp t).refresh.1
        [(.highlights t wanted, ticket)]

-- The worker has done some of the requests, stands at one perhaps, and has the others in its queue.
structure Serves (first : Session σ) (requests : List (Request σ)) (w : Worker σ)
    (served : List (Served σ)) (present : List (Request σ × Nat)) : Prop where
  order : served.map (fun x => (x.request, x.ticket)) ++ (present ++ w.queue) = requests.zipIdx
  standing : Standing (Queue.drain first (served.map Served.command)).1 w.phase w.session present
  answers : w.answers = answered first served
  cancelled : ∀ x ∈ served, x.cancelled ≠ .never → x.ticket ∈ w.gone
  sent : w.sent = requests.length

variable {served : List (Served σ)} {present rest : List (Request σ × Nat)} {x : Served σ}

theorem spawn_serves (layer : σ) (t : Text) (config : Config) :
    Serves (.start layer t config) [] (spawn layer t config) [] [] :=
  ⟨rfl, .idle, rfl, by simp, rfl⟩

-- The request that the worker stands at, or the next one, is done.
theorem Serves.done (serves : Serves first requests w served present)
    (next : (x.request, x.ticket) :: rest = present ++ w.queue)
    (cancelled : x.cancelled ≠ .never → x.ticket ∈ w.gone) {session : Session σ}
    {reply : Option Reply}
    (step : Queue.step (Queue.drain first (served.map Served.command)).1 x.command =
      (session, reply)) :
    Serves first requests { w with
      session := session
      queue := rest
      phase := .idle
      answers := w.answers ++ (reply.map (x.ticket, ·)).toList } (served ++ [x]) [] := by
  have drained : (Queue.drain first ((served ++ [x]).map Served.command)).1 = session := by
    rw [List.map_append, List.map_singleton, Queue.drain_last, step]
  refine ⟨?_, ?_, ?_, ?_, serves.sent⟩
  · rw [List.map_append, List.append_assoc]
    exact (congrArg _ next).trans serves.order
  · rw [drained]
    exact .idle
  · rw [answered_append, answered, answered, step, serves.answers, List.append_nil]
  · intro y member other
    rcases List.mem_append.mp member with earlier | own
    · exact serves.cancelled y earlier other
    · cases List.mem_singleton.mp own
      exact cancelled other

variable {s session : Session σ} {ticket : Nat} {wanted : Span} {invalidated : SpanSet}

theorem Standing.at_idle (standing : Standing s .idle session present) :
    session = s ∧ present = [] := by
  cases standing
  exact ⟨rfl, rfl⟩

theorem Standing.at_current (standing : Standing s (.current ticket wanted) session present) :
    ∃ t, session = s.catchUp t ∧ present = [(.highlights t wanted, ticket)] := by
  cases standing with
  | current t => exact ⟨_, rfl, rfl⟩

theorem Standing.at_refreshed
    (standing : Standing s (.refreshed ticket wanted invalidated) session present) :
    ∃ t, session = (s.catchUp t).refresh.1 ∧ invalidated = (s.catchUp t).refresh.2 ∧
      present = [(.highlights t wanted, ticket)] := by
  cases standing with
  | refreshed t => exact ⟨_, rfl, rfl, rfl⟩

theorem take_ways {request : Request σ} (queue : w.queue = (request, ticket) :: rest) :
    (∃ t wanted, request = .highlights t wanted ∧ w.take = { w with
      session := w.session.catchUp t
      queue := rest
      phase := .current ticket wanted }) ∨
    w.take = { w with
      session := (Queue.step w.session (request.command .never)).1
      queue := rest
      answers := w.answers ++
        ((Queue.step w.session (request.command .never)).2.map (ticket, ·)).toList } := by
  unfold take
  rw [queue]
  cases request with
  | highlights t wanted => exact .inl ⟨t, wanted, rfl, rfl⟩
  | _ => exact .inr rfl

theorem take_serves (serves : Serves first requests w served present) (idle : w.phase = .idle) :
    ∃ served present, Serves first requests w.take served present := by
  have standing := serves.standing
  rw [idle] at standing
  obtain ⟨session, rfl⟩ := standing.at_idle
  cases queue : w.queue with
  | nil =>
    have same : w.take = w := by
      unfold take
      rw [queue]
    rw [same]
    exact ⟨served, [], serves⟩
  | cons head rest =>
    obtain ⟨request, ticket⟩ := head
    rcases take_ways queue with ⟨t, wanted, rfl, taken⟩ | taken
    · refine ⟨served, [(.highlights t wanted, ticket)], ?_⟩
      rw [taken]
      refine ⟨?_, ?_, serves.answers, serves.cancelled, serves.sent⟩
      · rw [← serves.order, queue]
        rfl
      · dsimp only
        rw [session]
        exact .current ticket t wanted
    · have next : (request, ticket) :: rest = [] ++ w.queue := queue.symm
      have done := serves.done (x := ⟨request, ticket, .never⟩) next
        (fun other => absurd rfl other) rfl
      rw [taken, session]
      rw [← idle] at done
      exact ⟨_, _, done⟩

theorem work_serves (serves : Serves first requests w served present) :
    ∃ served present, Serves first requests w.work served present := by
  unfold work
  cases phase : w.phase with
  | idle => exact take_serves serves phase
  | current ticket wanted =>
    have standing := serves.standing
    rw [phase] at standing
    obtain ⟨t, session, rfl⟩ := standing.at_current
    dsimp only
    split
    · rename_i gone
      have done := serves.done (x := ⟨.highlights t wanted, ticket, .beforeRefresh⟩) rfl
        (fun _ => gone) rfl
      rw [← session] at done
      exact ⟨_, _, done⟩
    · refine ⟨served, _, serves.order, ?_, serves.answers, serves.cancelled, serves.sent⟩
      dsimp only
      rw [session]
      exact .refreshed ticket t wanted
  | refreshed ticket wanted invalidated =>
    have standing := serves.standing
    rw [phase] at standing
    obtain ⟨t, session, rfl, rfl⟩ := standing.at_refreshed
    dsimp only
    split
    · rename_i gone
      have done := serves.done (x := ⟨.highlights t wanted, ticket, .afterRefresh⟩) rfl
        (fun _ => gone) rfl
      rw [← session] at done
      exact ⟨_, _, done⟩
    · have done := serves.done (x := ⟨.highlights t wanted, ticket, .never⟩) rfl
        (fun other => absurd rfl other) rfl
      rw [session]
      exact ⟨_, _, done⟩

theorem happen_serves (serves : Serves first requests w served present) (event : Event σ) :
    ∃ served present,
      Serves first (requests ++ Event.requests [event]) (w.happen event) served present := by
  cases event with
  | send request =>
    refine ⟨served, present, ?_, serves.standing, serves.answers, serves.cancelled, ?_⟩
    · change _ = (requests ++ [request]).zipIdx
      rw [List.zipIdx_append, ← serves.order, List.append_assoc, List.append_assoc, Nat.zero_add,
        ← serves.sent]
      rfl
    · change w.sent + 1 = (requests ++ [request]).length
      rw [List.length_append, serves.sent, List.length_singleton]
  | leave ticket =>
    have same : requests ++ Event.requests [.leave ticket] = requests := List.append_nil _
    rw [same]
    refine ⟨served, present, serves.order, serves.standing, serves.answers, ?_, serves.sent⟩
    intro x member other
    exact List.mem_cons_of_mem _ (serves.cancelled x member other)
  | work =>
    have same : requests ++ Event.requests [.work] = requests := List.append_nil _
    rw [same]
    exact work_serves serves

theorem run_serves (serves : Serves first requests w served present) (events : List (Event σ)) :
    ∃ served present,
      Serves first (requests ++ Event.requests events) (w.run events) served present := by
  induction events generalizing w requests served present with
  | nil => exact ⟨served, present, by simpa [Event.requests, run] using serves⟩
  | cons event rest ih =>
    obtain ⟨served, present, happened⟩ := happen_serves serves event
    have parts : requests ++ Event.requests (event :: rest) =
        requests ++ Event.requests [event] ++ Event.requests rest := by
      rw [List.append_assoc]
      exact congrArg _ (List.filterMap_append (l := [event]))
    rw [parts]
    exact ih happened

def Drained (w : Worker σ) : Prop := w.queue = [] ∧ w.phase = .idle

def due (w : Worker σ) : Nat :=
  3 * w.queue.length +
    match w.phase with
    | .idle => 0
    | .current _ _ => 2
    | .refreshed _ _ _ => 1

theorem work_due (busy : ¬ w.Drained) : w.work.due < w.due := by
  unfold work
  cases phase : w.phase with
  | idle =>
    cases queue : w.queue with
    | nil => exact absurd ⟨queue, phase⟩ busy
    | cons head rest =>
      rcases take_ways queue with ⟨t, wanted, -, taken⟩ | taken
      · dsimp only
        rw [taken]
        simp only [due, queue, phase, List.length_cons]
        omega
      · dsimp only
        rw [taken]
        simp only [due, queue, phase, List.length_cons]
        omega
  | current ticket wanted =>
    dsimp only
    split
    · simp [due, answer, phase]
    · simp [due, phase]
  | refreshed ticket wanted invalidated =>
    dsimp only
    split
    · simp [due, answer, phase]
    · simp [due, answer, phase]

theorem work_drains (w : Worker σ) : ∃ n, (w.run (List.replicate n .work)).Drained := by
  induction due : w.due using Nat.strongRecOn generalizing w with
  | ind m ih =>
    by_cases drained : w.Drained
    · exact ⟨0, drained⟩
    · obtain ⟨n, later⟩ := ih w.work.due (due ▸ work_due drained) w.work rfl
      exact ⟨n + 1, later⟩

theorem Serves.all (serves : Serves first requests w served present) (drained : w.Drained) :
    served.map (fun x => (x.request, x.ticket)) = requests.zipIdx ∧
      w.session = (Queue.drain first (served.map Served.command)).1 := by
  obtain ⟨queue, phase⟩ := drained
  have standing := serves.standing
  have order := serves.order
  rw [phase] at standing
  obtain ⟨session, rfl⟩ := standing.at_idle
  rw [queue, List.append_nil, List.append_nil] at order
  exact ⟨order, session⟩

theorem answered_once {a b : List (Served σ)} {x : Served σ} {reply : Reply}
    (tickets : ((a ++ x :: b).map Served.ticket).Nodup)
    (replied : (Queue.step (Queue.drain s (a.map Served.command)).1 x.command).2 = some reply) :
    (answered s (a ++ x :: b)).filter (fun given => given.1 = x.ticket) = [(x.ticket, reply)] := by
  rw [List.map_append, List.map_cons, List.nodup_append] at tickets
  obtain ⟨-, behind, apart⟩ := tickets
  have front : (answered s a).filter (fun given => given.1 = x.ticket) = [] := by
    refine List.filter_eq_nil_iff.mpr fun given member => ?_
    obtain ⟨y, held, same⟩ := mem_answered member
    have other := apart y.ticket (List.mem_map_of_mem held) x.ticket (by simp)
    simpa [← same] using other
  have back {s : Session σ} :
      (answered s b).filter (fun given => given.1 = x.ticket) = [] := by
    refine List.filter_eq_nil_iff.mpr fun given member => ?_
    obtain ⟨y, held, same⟩ := mem_answered member
    have other : x.ticket ∉ b.map Served.ticket := (List.nodup_cons.mp behind).1
    have listed : y.ticket ∈ b.map Served.ticket := List.mem_map_of_mem held
    have distinct : given.1 ≠ x.ticket := fun equal => other (by rwa [← equal, ← same])
    simpa using distinct
  rw [answered_append, answered, replied, List.filter_append, List.filter_append, front, back]
  simp

-- The queue can be drained. A snapshot that is then asked for shows the text that the requests
-- leave behind in their order, and each request for highlights that was waited for has one answer:
-- what a session that had done the requests before it finds in the text that came with it.
theorem drained_serves (layer : σ) (first : Text) (config : Config) (events : List (Event σ))
    (fits : ∀ request ∈ Event.requests events, request.Fits)
    (held : ∀ n, Text.size (Request.content first ((Event.requests events).take n)) <
      0x8000000000000000) :
    (∃ n, ((spawn layer first config).run (events ++ List.replicate n .work)).Drained) ∧
      let requests := Event.requests events
      let w := (spawn layer first config).run events
      w.Drained →
        (∃ shot, (w.run [.send .snapshot, .work]).answers =
            w.answers ++ [(requests.length, .snapshot shot)] ∧
          shot.text = Request.content first requests ∧
          shot.lineStarts = (LineIndex.ofText shot.text).starts) ∧
        ∀ (ticket : Nat) (t : Text) (wanted : Span),
          requests[ticket]? = some (.highlights t wanted) → ticket ∉ w.gone →
            ∃ earlier : List (Served σ), earlier.map Served.request = requests.take ticket ∧
              let s := (Queue.drain (.start layer first config) (earlier.map Served.command)).1
              ∃ next p, s.pass t wanted .never = (next, some p) ∧ next.text = t ∧
                p = next.rendered p.updated ∧
                w.answers.filter (fun given => given.1 = ticket) = [(ticket, .pass (some p))] := by
  have started := run_serves (spawn_serves layer first config) events
  rw [List.nil_append] at started
  obtain ⟨served, present, serves⟩ := started
  refine ⟨?_, fun drained => ?_⟩
  · obtain ⟨n, drained⟩ := work_drains ((spawn layer first config).run events)
    refine ⟨n, ?_⟩
    unfold run at drained ⊢
    rwa [List.foldl_append]
  obtain ⟨order, session⟩ := serves.all drained
  obtain ⟨same, tickets⟩ := served_requests order
  refine ⟨?_, fun ticket t wanted queued waited => ?_⟩
  · have fitting : ∀ x ∈ served, x.request.Fits := by
      intro x member
      apply fits
      rw [← same]
      exact List.mem_map_of_mem member
    have document := Queue.drain_leaves served (Session.start_agrees layer first config) fitting
      (by rwa [same])
    rw [same, ← session] at document
    generalize (spawn layer first config).run events = w at *
    obtain ⟨queue, phase⟩ := drained
    refine ⟨Queue.snapshot w.session, ?_, congrArg Document.text document, ?_⟩
    · rw [← serves.sent]
      simp [run, happen, work, take, queue, phase, Request.command, Queue.step]
    · simp only [Queue.snapshot, Session.text]
      rw [document]
      rfl
  · obtain ⟨earlier, x, later, rfl, request, rfl, before⟩ := served_at order queued
    have never : x.cancelled = .never := by
      by_contra other
      exact waited (serves.cancelled x (by simp) other)
    have command : x.command = .pass t wanted .never := by
      rw [Served.command, request, never]
      rfl
    refine ⟨earlier, before, _, _, Session.pass_never _ t wanted, Session.finished_text _ t, rfl, ?_⟩
    rw [serves.answers]
    apply answered_once
    · rw [tickets]
      exact List.nodup_range'
    · rw [command]
      rfl

-- The asker of the first request leaves while the layer refreshes, an edit that does not fit is
-- noted, then one that does, and another sender asks again.
def crossing : List (Event Rules.RuleLayer) :=
  [.send (.highlights ['b'] ⟨0, 1⟩), .work, .send (.edit (.insert 7 ['c'])), .work, .leave 0,
    .send (.edit (.insert 1 ['\r'])), .work, .send (.highlights ['b', '\r'] ⟨0, 2⟩), .work, .work,
    .work, .work, .work]

theorem drained_serves_crossing :
    let w := (spawn (⟨.empty⟩ : Rules.RuleLayer) ['a'] {}).run crossing
    (∃ shot, (w.run [.send .snapshot, .work]).answers = w.answers ++ [(4, .snapshot shot)] ∧
      shot.text = ['b', '\r'] ∧ shot.lineStarts = [0, 2]) ∧
      ∃ p, w.answers.filter (fun given => given.1 = 3) = [(3, .pass (some p))] := by
  intro w
  have requests : Event.requests crossing = [.highlights ['b'] ⟨0, 1⟩, .edit (.insert 7 ['c']),
      .edit (.insert 1 ['\r']), .highlights ['b', '\r'] ⟨0, 2⟩] := rfl
  have small : (1 : Nat) < 0x8000000000000000 := by decide
  have fits : ∀ request ∈ Event.requests crossing, request.Fits := by
    rw [requests]
    simp only [List.forall_mem_cons]
    exact ⟨trivial, small, small, trivial, nofun⟩
  have held : ∀ n, Text.size (Request.content ['a'] ((Event.requests crossing).take n)) <
      0x8000000000000000 := by
    intro n
    rw [requests]
    rcases n with _ | _ | _ | _ | n
    · decide
    · decide
    · decide +kernel
    · decide +kernel
    · rw [List.take_of_length_le (Nat.le_add_left 4 n)]
      decide
  obtain ⟨-, serves⟩ := drained_serves (⟨.empty⟩ : Rules.RuleLayer) ['a'] {} crossing fits held
  obtain ⟨⟨shot, shown, text, lines⟩, answers⟩ := serves ⟨rfl, rfl⟩
  obtain ⟨-, -, -, p, -, -, -, once⟩ := answers 3 ['b', '\r'] ⟨0, 2⟩ rfl (by decide +kernel)
  have left : shot.text = ['b', '\r'] := text
  rw [left] at lines
  exact ⟨⟨shot, shown, left, lines⟩, p, once⟩

end Worker

end LiveHighlight
