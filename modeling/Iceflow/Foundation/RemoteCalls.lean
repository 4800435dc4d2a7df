import Mathlib.Data.List.Basic
import Mathlib.Data.List.Induction
import Mathlib.Data.List.Perm.Basic
import Mathlib.Logic.Function.Basic
import Iceflow.Foundation.Transition

/-! Remote calls. Threads of clients send requests to one server, which serves them in any
order between steps of its own. Requests and answers may be lost, and a request whose client
has given up may still be served. What is proved of any run: the server's state is that of a
sequential run, and an answer was computed between the call and its return. -/
namespace RemoteCalls

/-- A server: how it serves a request in an environment, and its own steps. -/
structure Server (S Q A E L : Type*) where
  serve : S → E → Q → A × S
  own : S → L → S

inductive Position (Q A : Type*) where
  | idle
  | waiting (request : Q)
  | answered (request : Q) (answer : A)
  | failed (request : Q)

/-- Requests in flight come with the thread that waits for them, unless it has given up.
`returned` records what calls returned; nothing reads it. -/
structure Session (κ S Q A : Type*) where
  state : S
  position : κ → Position Q A
  inFlight : List (Option κ × Q)
  returned : List (κ × Q × Option A)

inductive Step (κ Q E L : Type*) where
  | call (t : κ) (request : Q)
  /-- The server serves a request in flight. -/
  | serve (index : Nat) (environment : E)
  /-- A request in flight is lost. -/
  | lose (index : Nat)
  /-- The transport reports a failure to the client. -/
  | fail (t : κ)
  | finish (t : κ)
  | own (label : L)

inductive Effect (Q E L : Type*) where
  | served (environment : E) (request : Q)
  | own (label : L)

variable {κ S Q A E L : Type*}

def Session.initial (state : S) : Session κ S Q A := ⟨state, fun _ => .idle, [], []⟩

def Effect.apply (server : Server S Q A E L) (state : S) : Effect Q E L → S
  | .served environment request => (server.serve state environment request).2
  | .own label => server.own state label

/-- The client of an abandoned request is forgotten. -/
def abandon [DecidableEq κ] (t : κ) (entry : Option κ × Q) : Option κ × Q :=
  if entry.1 = some t then (none, entry.2) else entry

/-- A request in flight that has a client is the one its client waits for. -/
structure Tracked (s : Session κ S Q A) : Prop where
  waiting : ∀ t request, (some t, request) ∈ s.inFlight → s.position t = .waiting request
  once : (s.inFlight.filterMap Prod.fst).Nodup

theorem Tracked.absent {s : Session κ S Q A} (tracked : Tracked s) {t : κ}
    (busy : ∀ request, s.position t ≠ .waiting request) :
    ∀ request, (some t, request) ∉ s.inFlight :=
  fun request member => busy request (tracked.waiting t request member)

section
variable [DecidableEq κ] (server : Server S Q A E L)

namespace Session

def move (s : Session κ S Q A) (t : κ) (position : Position Q A) : Session κ S Q A :=
  { s with position := Function.update s.position t position }

def perform (s : Session κ S Q A) : Step κ Q E L → Session κ S Q A
  | .call t request =>
    match s.position t with
    | .idle => { s.move t (.waiting request) with inFlight := s.inFlight ++ [(some t, request)] }
    | _ => s
  | .serve index environment =>
    match s.inFlight[index]? with
    | some (client, request) =>
      let (answer, state) := server.serve s.state environment request
      let s := { s with state, inFlight := s.inFlight.eraseIdx index }
      match client with
      | some t => s.move t (.answered request answer)
      | none => s
    | none => s
  | .lose index => { s with inFlight := s.inFlight.eraseIdx index }
  | .fail t =>
    match s.position t with
    | .waiting request =>
      { s.move t (.failed request) with inFlight := s.inFlight.map (abandon t) }
    | .answered request _ => s.move t (.failed request)
    | _ => s
  | .finish t =>
    match s.position t with
    | .answered request answer =>
      { s.move t .idle with returned := s.returned ++ [(t, request, some answer)] }
    | .failed request => { s.move t .idle with returned := s.returned ++ [(t, request, none)] }
    | _ => s
  | .own label => { s with state := server.own s.state label }

def effect (s : Session κ S Q A) : Step κ Q E L → Option (Effect Q E L)
  | .serve index environment => s.inFlight[index]?.map fun entry => .served environment entry.2
  | .own label => some (.own label)
  | _ => none

@[simp] theorem move_self (s : Session κ S Q A) (t : κ) (position : Position Q A) :
    (s.move t position).position t = position := Function.update_self ..

theorem move_other (s : Session κ S Q A) {t u : κ} (other : u ≠ t) (position : Position Q A) :
    (s.move t position).position u = s.position u := Function.update_of_ne other ..

end Session

abbrev run (s : Session κ S Q A) (steps : List (Step κ Q E L)) : Session κ S Q A :=
  Transition.run (Session.perform server) s steps

def effects (s : Session κ S Q A) (steps : List (Step κ Q E L)) : List (Effect Q E L) :=
  (Transition.steps (Session.perform server) s steps).filterMap (fun x => x.1.effect x.2)

variable {server}

theorem state_perform (s : Session κ S Q A) (step : Step κ Q E L) :
    (s.perform server step).state =
      Transition.run (Effect.apply server) s.state (s.effect step).toList := by
  cases step with
  | serve index environment =>
    cases found : s.inFlight[index]? with
    | none => simp [Session.perform, Session.effect, found]
    | some entry =>
      obtain ⟨client, request⟩ := entry
      cases client <;>
        simp [Session.perform, Session.effect, found, Effect.apply, Session.move]
  | own label => rfl
  | lose index => rfl
  | call t request | fail t | finish t =>
    simp only [Session.perform, Session.effect]
    cases s.position t <;> rfl

/-- The server does what a sequential run of its effects does. -/
theorem state_run (s : Session κ S Q A) (steps : List (Step κ Q E L)) :
    (run server s steps).state =
      Transition.run (Effect.apply server) s.state (effects server s steps) := by
  induction steps generalizing s with
  | nil => rfl
  | cons step rest ih =>
    rw [run, Transition.run_cons, effects, Transition.steps, List.filterMap_cons]
    have later := ih (s.perform server step)
    rw [run, state_perform] at later
    rw [later]
    cases s.effect step <;> rfl

theorem effects_served {s : Session κ S Q A} {first : List (Step κ Q E L)} {index : Nat}
    {client : Option κ} {request : Q}
    (found : (run server s first).inFlight[index]? = some (client, request)) (environment : E)
    (rest : List (Step κ Q E L)) :
    ∃ later, effects server s (first ++ .serve index environment :: rest) =
      effects server s first ++ .served environment request :: later := by
  rw [effects, Transition.steps_append, Transition.steps, List.filterMap_append,
    List.filterMap_cons, Session.effect, found]
  exact ⟨_, rfl⟩

theorem erase_perm {α : Type*} {xs : List α} {index : Nat} {x : α}
    (found : xs[index]? = some x) : (x :: xs.eraseIdx index).Perm xs := by
  obtain ⟨inside, rfl⟩ := List.getElem?_eq_some_iff.mp found
  exact List.getElem_cons_eraseIdx_perm inside

theorem clients_abandon (t : κ) (entries : List (Option κ × Q)) :
    (entries.map (abandon t)).filterMap Prod.fst =
      (entries.filterMap Prod.fst).filter (fun u => u ≠ t) := by
  induction entries with
  | nil => rfl
  | cons entry rest ih =>
    obtain ⟨client, request⟩ := entry
    cases client with
    | none => simpa [abandon] using ih
    | some u =>
      by_cases same : u = t
      · subst same
        simpa [abandon] using ih
      · simpa [abandon, same] using ih

theorem Tracked.moved {s : Session κ S Q A} (tracked : Tracked s) {t : κ}
    (position : Position Q A) (absent : ∀ request, (some t, request) ∉ s.inFlight) :
    Tracked (s.move t position) := by
  refine ⟨?_, tracked.once⟩
  intro u request member
  have other : u ≠ t := by
    rintro rfl
    exact absent request member
  rw [Session.move_other s other]
  exact tracked.waiting u request member

theorem Tracked.perform {s : Session κ S Q A} (tracked : Tracked s) (step : Step κ Q E L) :
    Tracked (s.perform server step) := by
  cases step with
  | own label => exact ⟨tracked.waiting, tracked.once⟩
  | lose index =>
    exact ⟨fun t request member => tracked.waiting t request (List.mem_of_mem_eraseIdx member),
      tracked.once.sublist ((List.eraseIdx_sublist _ _).filterMap _)⟩
  | call t request =>
    simp only [Session.perform]
    split
    · rename_i idle
      have absent := tracked.absent (t := t) (by simp [idle])
      refine ⟨?_, ?_⟩
      · intro u other member
        rcases List.mem_append.mp member with old | new
        · exact (tracked.moved _ absent).waiting u other old
        · obtain ⟨rfl, rfl⟩ : u = t ∧ other = request := by simpa using new
          exact Session.move_self ..
      · rw [List.filterMap_append, List.nodup_append]
        refine ⟨tracked.once, by simp, ?_⟩
        rintro u member v new rfl
        obtain rfl : u = t := by simpa using new
        obtain ⟨⟨client, other⟩, listed, same⟩ := List.mem_filterMap.mp member
        obtain rfl : client = some u := same
        exact absent other listed
    · exact tracked
  | serve index environment =>
    simp only [Session.perform]
    split
    · rename_i client request found
      have taken := erase_perm found
      have clients := (taken.filterMap Prod.fst).nodup_iff.mpr tracked.once
      have rest : Tracked ({ s with
          state := (server.serve s.state environment request).2
          inFlight := s.inFlight.eraseIdx index } : Session κ S Q A) :=
        ⟨fun t request member =>
          tracked.waiting t request (List.mem_of_mem_eraseIdx member),
          tracked.once.sublist ((List.eraseIdx_sublist _ _).filterMap _)⟩
      cases client with
      | none => exact rest
      | some t =>
        apply rest.moved
        intro other member
        have apart : t ∉ (s.inFlight.eraseIdx index).filterMap Prod.fst :=
          (List.nodup_cons.mp clients).1
        exact apart (List.mem_filterMap.mpr ⟨_, member, rfl⟩)
    · exact tracked
  | fail t =>
    simp only [Session.perform]
    split
    · refine ⟨?_, ?_⟩
      · intro u request member
        obtain ⟨⟨client, other⟩, listed, same⟩ := List.mem_map.mp member
        simp only [abandon] at same
        split at same
        · cases same
        · rename_i different
          cases same
          have apart : u ≠ t := fun here => different (by rw [here])
          exact (Session.move_other s apart _).trans (tracked.waiting u request listed)
      · change ((s.inFlight.map (abandon t)).filterMap Prod.fst).Nodup
        rw [clients_abandon]
        exact tracked.once.filter _
    · rename_i request answer answered
      exact tracked.moved _ (tracked.absent (by simp [answered]))
    · exact tracked
  | finish t =>
    simp only [Session.perform]
    split
    · rename_i request answer answered
      have kept := tracked.moved (t := t) .idle (tracked.absent (by simp [answered]))
      exact ⟨kept.waiting, kept.once⟩
    · rename_i request failed
      have kept := tracked.moved (t := t) .idle (tracked.absent (by simp [failed]))
      exact ⟨kept.waiting, kept.once⟩
    · exact tracked

theorem run_tracked (state : S) (steps : List (Step κ Q E L)) :
    Tracked (run server (Session.initial state : Session κ S Q A) steps) :=
  Transition.run_invariant (P := Tracked) (fun _ step tracked => tracked.perform step)
    ⟨by simp [Session.initial], by simp [Session.initial]⟩ steps

theorem waiting_perform {s : Session κ S Q A} {step : Step κ Q E L} {t : κ} {request : Q}
    (waits : (s.perform server step).position t = .waiting request) :
    s.position t = .waiting request ∨ step = .call t request ∧ s.position t = .idle := by
  have moved {u : κ} {position : Position Q A} (other : position ≠ .waiting request)
      (after : (s.move u position).position t = .waiting request) :
      s.position t = .waiting request := by
    by_cases same : t = u
    · subst same
      exact absurd ((Session.move_self s t position).symm.trans after) other
    · rwa [Session.move_other s same] at after
  cases step with
  | own label => exact Or.inl waits
  | lose index => exact Or.inl waits
  | call u other =>
    simp only [Session.perform] at waits
    split at waits
    · rename_i idle
      by_cases same : t = u
      · subst same
        obtain rfl : other = request := by simpa [Session.move] using waits
        exact Or.inr ⟨rfl, idle⟩
      · exact Or.inl ((Session.move_other s same _).symm.trans waits)
    · exact Or.inl waits
  | serve index environment =>
    simp only [Session.perform] at waits
    split at waits
    · rename_i client other found
      cases client with
      | none => exact Or.inl waits
      | some u => exact Or.inl (moved (by simp) waits)
    · exact Or.inl waits
  | fail u | finish u =>
    simp only [Session.perform] at waits
    split at waits
    · exact Or.inl (moved (by simp) waits)
    · exact Or.inl (moved (by simp) waits)
    · exact Or.inl waits

theorem answered_perform {s : Session κ S Q A} {step : Step κ Q E L} {t : κ} {request : Q}
    {answer : A} (has : (s.perform server step).position t = .answered request answer) :
    s.position t = .answered request answer ∨ ∃ index environment,
      step = .serve index environment ∧ s.inFlight[index]? = some (some t, request) ∧
        (server.serve s.state environment request).1 = answer := by
  have moved {u : κ} {position : Position Q A} (other : position ≠ .answered request answer)
      (after : (s.move u position).position t = .answered request answer) :
      s.position t = .answered request answer := by
    by_cases same : t = u
    · subst same
      exact absurd ((Session.move_self s t position).symm.trans after) other
    · rwa [Session.move_other s same] at after
  cases step with
  | own label => exact Or.inl has
  | lose index => exact Or.inl has
  | call u other =>
    simp only [Session.perform] at has
    split at has
    · exact Or.inl (moved (by simp) has)
    · exact Or.inl has
  | serve index environment =>
    simp only [Session.perform] at has
    split at has
    · rename_i client other found
      cases client with
      | none => exact Or.inl has
      | some u =>
        by_cases same : t = u
        · subst same
          have both : Position.answered other (server.serve s.state environment other).1 =
              .answered request answer := (Session.move_self _ t _).symm.trans has
          simp only [Position.answered.injEq] at both
          obtain ⟨rfl, made⟩ := both
          exact Or.inr ⟨index, environment, rfl, found, made⟩
        · exact Or.inl ((Session.move_other _ same _).symm.trans has)
    · exact Or.inl has
  | fail u | finish u =>
    simp only [Session.perform] at has
    split at has
    · exact Or.inl (moved (by simp) has)
    · exact Or.inl (moved (by simp) has)
    · exact Or.inl has

/-- What has been returned after a step was returned before, or is the answer of a thread
that finishes. -/
theorem returned_perform {s : Session κ S Q A} {step : Step κ Q E L} {t : κ} {request : Q}
    {answer : A} (has : (t, request, some answer) ∈ (s.perform server step).returned) :
    (t, request, some answer) ∈ s.returned ∨
      step = .finish t ∧ s.position t = .answered request answer := by
  cases step with
  | own label => exact Or.inl has
  | lose index => exact Or.inl has
  | call u other | fail u =>
    simp only [Session.perform] at has
    split at has <;> exact Or.inl has
  | serve index environment =>
    simp only [Session.perform] at has
    split at has
    · rename_i client other found
      cases client <;> exact Or.inl has
    · exact Or.inl has
  | finish u =>
    simp only [Session.perform] at has
    split at has
    · rename_i other made answered
      rcases List.mem_append.mp has with old | new
      · exact Or.inl old
      · obtain ⟨rfl, rfl, rfl⟩ : t = u ∧ request = other ∧ answer = made := by simpa using new
        exact Or.inr ⟨rfl, answered⟩
    · rcases List.mem_append.mp has with old | new
      · exact Or.inl old
      · simp at new
    · exact Or.inl has

/-- A thread made a call after `first` and has been waiting over `before`. -/
structure Waited (server : Server S Q A E L) (s : Session κ S Q A)
    (first before : List (Step κ Q E L)) (t : κ) (request : Q) : Prop where
  idle : (run server s first).position t = .idle
  waiting : ∀ part, part <+: before →
    (run server s (first ++ .call t request :: part)).position t = .waiting request

/-- The request was served after `before`, and its answer has been kept over `after`. -/
structure Answered (server : Server S Q A E L) (s : Session κ S Q A)
    (first before : List (Step κ Q E L)) (index : Nat) (environment : E)
    (after : List (Step κ Q E L)) (t : κ) (request : Q) (answer : A) : Prop where
  waited : Waited server s first before t request
  found : (run server s (first ++ .call t request :: before)).inFlight[index]? =
    some (some t, request)
  served : (server.serve (run server s (first ++ .call t request :: before)).state environment
    request).1 = answer
  kept : ∀ part, part <+: after → (run server s (first ++ .call t request ::
    (before ++ .serve index environment :: part))).position t = .answered request answer

/-- Where the positions and answers that a run reaches come from. -/
structure Explained (server : Server S Q A E L) (s : Session κ S Q A)
    (steps : List (Step κ Q E L)) : Prop where
  waiting : ∀ t request, (run server s steps).position t = .waiting request →
    ∃ first before, steps = first ++ .call t request :: before ∧
      Waited server s first before t request
  answered : ∀ t request answer, (run server s steps).position t = .answered request answer →
    ∃ first before index environment after,
      steps = first ++ .call t request :: (before ++ .serve index environment :: after) ∧
        Answered server s first before index environment after t request answer
  returned : ∀ t request answer, (t, request, some answer) ∈ (run server s steps).returned →
    ∃ first before index environment after rest, steps = first ++ .call t request ::
        (before ++ .serve index environment :: (after ++ .finish t :: rest)) ∧
      Answered server s first before index environment after t request answer

theorem run_concat (s : Session κ S Q A) (steps : List (Step κ Q E L)) (step : Step κ Q E L) :
    run server s (steps ++ [step]) = (run server s steps).perform server step :=
  Transition.run_append (Session.perform server) s steps [step]

/-- What holds over all parts of a list and of the whole extended by one holds over all
parts of the extended list. -/
theorem parts_concat {α : Type*} {P : List α → Prop} {xs : List α} {x : α}
    (parts : ∀ part, part <+: xs → P part) (whole : P (xs ++ [x])) :
    ∀ part, part <+: xs ++ [x] → P part := by
  intro part before
  rcases List.prefix_concat_iff.mp before with rfl | inside
  · exact whole
  · exact parts part inside

theorem run_explained (state : S) (steps : List (Step κ Q E L)) :
    Explained server (Session.initial state : Session κ S Q A) steps := by
  induction steps using List.reverseRecOn with
  | nil =>
    refine ⟨?_, ?_, ?_⟩
    · rintro t request ⟨⟩
    · rintro t request answer ⟨⟩
    · rintro t request answer ⟨⟩
  | append_singleton steps step ih =>
    constructor
    case waiting =>
      intro t request waits
      have now := waits
      rw [run_concat] at now
      rcases waiting_perform now with before | ⟨rfl, idle⟩
      · obtain ⟨first, between, rfl, waited⟩ := ih.waiting t request before
        refine ⟨first, between ++ [step], by simp, waited.idle,
          parts_concat waited.waiting ?_⟩
        simpa using waits
      · refine ⟨steps, [], rfl, idle, ?_⟩
        intro part nothing
        rw [List.prefix_nil.mp nothing]
        exact waits
    case answered =>
      intro t request answer has
      have now := has
      rw [run_concat] at now
      rcases answered_perform now with before | ⟨index, environment, rfl, found, served⟩
      · obtain ⟨first, between, index, environment, after, rfl, answered⟩ :=
          ih.answered t request answer before
        refine ⟨first, between, index, environment, after ++ [step], by simp, answered.waited,
          answered.found, answered.served, parts_concat answered.kept ?_⟩
        simpa using has
      · have waits := (run_tracked state steps).waiting t request (List.mem_of_getElem? found)
        obtain ⟨first, between, rfl, waited⟩ := ih.waiting t request waits
        refine ⟨first, between, index, environment, [], by simp, waited, found, served, ?_⟩
        intro part nothing
        rw [List.prefix_nil.mp nothing]
        simpa using has
    case returned =>
      intro t request answer has
      rw [run_concat] at has
      rcases returned_perform has with before | ⟨rfl, answered⟩
      · obtain ⟨first, between, index, environment, after, rest, rfl, answered⟩ :=
          ih.returned t request answer before
        exact ⟨first, between, index, environment, after, rest ++ [step], by simp, answered⟩
      · obtain ⟨first, between, index, environment, after, rfl, point⟩ :=
          ih.answered t request answer answered
        exact ⟨first, between, index, environment, after, [], by simp, point⟩

end

end RemoteCalls
