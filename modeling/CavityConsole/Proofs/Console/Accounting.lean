import CavityConsole.Proofs.Console.Run
import Mathlib.Data.List.Basic
import Mathlib.Data.List.Forall2

/-!
# What becomes of every response

No response disappears. A `Ledger` holds every response that arrived, in the order of arrival, each
with the place where it is: discarded for one of three reasons, taken as the answer of a call, or
still in the slot. `ledger` keeps it along a history, and `Accounts` compares it with what can be
seen from outside: the entries of the log, the outcomes of the calls, and the slot.

**The law** (`every_response_accounted`): at every moment of every history the responses at a place
are exactly the ones reported there, one by one and in order. So each response is at one place, is
reported once if it is discarded and answers one call if it is an answer.

Responses come out of the slot in the order in which they went in, because there is room for one.
In the ledger this is `InOrder`: behind the response in the slot there are only such as never went
in. It is what makes settling that response the same as adding it to the end of its new place.

**What it does not establish.** That the log is written anywhere; an entry is counted when a step
gives it.
-/

namespace CavityConsole

/-- Why a response is thrown away. -/
inductive Discard where
  /-- It arrived while no command was outstanding. -/
  | idle
  /-- It arrived while another one was waiting to be taken. -/
  | surplus
  /-- It was left over when a later command began. -/
  | stray
deriving DecidableEq

/-- The response that an entry reports as thrown away, and why. -/
def LogEntry.discarded? : LogEntry → Option (Discard × Document)
  | .idleResponse response => some (.idle, response)
  | .surplusResponse response => some (.surplus, response)
  | .strayResponse response => some (.stray, response)
  | _ => none

/-- An entry that reports a response shows it, as a warning if it came while no command was
outstanding and as an error otherwise. -/
theorem LogEntry.shows_discarded {entry : LogEntry} {reason : Discard} {response : Document}
    (h : entry.discarded? = some (reason, response)) :
    entry.level = (if reason = .idle then .warning else .error) ∧
      entry.fields = [("response", response.compact)] := by
  cases entry with
  | idleResponse | surplusResponse | strayResponse => cases h; exact ⟨rfl, rfl⟩
  | unrecognised | unknownNotification | invalidNotification | recovered | closing => cases h

/-- Where a response is. -/
inductive Place where
  /-- It was thrown away. -/
  | discarded (reason : Discard)
  /-- A call was answered by it. -/
  | answered
  /-- It is in the slot. -/
  | pending
deriving DecidableEq

/-- A response at this place never went into the slot. -/
def Place.isOutside : Place → Bool
  | .discarded .idle | .discarded .surplus => true
  | _ => false

/-- The responses that arrived, in order, and where they are. -/
abbrev Ledger := List (Document × Place)

namespace Ledger

/-- The responses at a place, in the order of their arrival. -/
def filed (ledger : Ledger) (place : Place) : List Document :=
  ledger.filterMap fun line => if line.2 = place then some line.1 else none

/-- The response in the slot, if there is one, goes to a place. -/
def settle (ledger : Ledger) (place : Place) : Ledger :=
  ledger.map fun line => (line.1, if line.2 = .pending then place else line.2)

/-- Behind the response in the slot there are only such as never went in. -/
def InOrder (ledger : Ledger) : Prop :=
  ledger.Pairwise fun earlier later => earlier.2 = .pending → Place.isOutside later.2

variable {ledger : Ledger} {place : Place}

@[simp] theorem filed_nil (place : Place) : filed [] place = [] := rfl

theorem filed_cons (response : Document) (held place : Place) (ledger : Ledger) :
    filed ((response, held) :: ledger) place =
      if held = place then response :: ledger.filed place else ledger.filed place := by
  unfold filed
  rw [List.filterMap_cons]
  by_cases h : held = place <;> simp [h]

theorem filed_append (ledger more : Ledger) (place : Place) :
    (ledger ++ more).filed place = ledger.filed place ++ more.filed place :=
  List.filterMap_append

@[simp] theorem map_fst_settle (ledger : Ledger) (place : Place) :
    (ledger.settle place).map Prod.fst = ledger.map Prod.fst := by
  unfold settle
  rw [List.map_map]
  rfl

theorem filed_eq_nil (h : ∀ line ∈ ledger, line.2 ≠ place) : ledger.filed place = [] := by
  refine List.filterMap_eq_nil_iff.mpr fun line hline => if_neg (h line hline)

theorem filed_pending_settle (h : place ≠ .pending) :
    (ledger.settle place).filed .pending = [] := by
  refine filed_eq_nil fun line hline => ?_
  obtain ⟨before, -, rfl⟩ := List.mem_map.mp hline
  dsimp only
  split
  next => exact h
  next hother => exact hother

theorem filed_settle_of_ne {other : Place} (hplace : other ≠ place) (hpending : other ≠ .pending) :
    (ledger.settle place).filed other = ledger.filed other := by
  unfold filed settle
  rw [List.filterMap_map]
  refine List.filterMap_congr fun line _ => ?_
  by_cases h : line.2 = .pending
  · simp [h, hplace.symm, hpending.symm]
  · simp [h]

theorem settle_eq_self (h : ∀ line ∈ ledger, line.2 ≠ .pending) : ledger.settle place = ledger := by
  unfold settle
  calc ledger.map _ = ledger.map id :=
        List.map_congr_left fun line hline => by rw [if_neg (h line hline), id]
    _ = ledger := List.map_id ledger

/-- **The response that is settled comes last at its place**, when the ledger is in order. -/
theorem filed_settle (inOrder : ledger.InOrder) (hplace : place.isOutside = false)
    (hpending : place ≠ .pending) :
    (ledger.settle place).filed place = ledger.filed place ++ ledger.filed .pending := by
  induction ledger with
  | nil => rfl
  | cons line ledger ih =>
    obtain ⟨response, held⟩ := line
    obtain ⟨behind, rest⟩ := List.pairwise_cons.mp inOrder
    change filed ((response, _) :: settle ledger place) place = _
    by_cases h : held = .pending
    · -- behind the response in the slot nothing is pending and nothing is at the place
      have apart : ∀ other : Place, other.isOutside = false → ∀ line ∈ ledger, line.2 ≠ other := by
        intro other hother line hline heq
        have outside := behind line hline h
        rw [heq, hother] at outside
        cases outside
      have unsettled : ∀ line ∈ ledger, line.2 ≠ .pending := apart .pending rfl
      rw [settle_eq_self unsettled, filed_cons, filed_cons, filed_cons, filed_eq_nil unsettled,
        filed_eq_nil (apart place hplace), h, if_pos rfl, if_pos rfl, if_pos rfl,
        if_neg hpending.symm]
      rfl
    · rw [filed_cons, filed_cons, filed_cons, ih rest, if_neg h, if_neg h]
      split <;> rfl

theorem InOrder.settle (inOrder : ledger.InOrder) (h : place ≠ .pending) :
    (ledger.settle place).InOrder := by
  refine (List.pairwise_map.mpr ?_)
  refine List.Pairwise.imp (fun {earlier later} _ hslot => ?_) inOrder
  dsimp only at hslot
  split at hslot
  next => exact absurd hslot h
  next hother => exact absurd hslot hother

/-- A new line keeps a ledger in order if nothing is in the slot, or if its response stays
outside. -/
theorem InOrder.concat (inOrder : ledger.InOrder) {line : Document × Place}
    (h : line.2.isOutside = true ∨ ledger.filed .pending = []) : (ledger ++ [line]).InOrder := by
  refine List.pairwise_append.mpr ⟨inOrder, List.pairwise_singleton _ _, ?_⟩
  intro earlier hearlier later hlater hslot
  cases List.mem_singleton.mp hlater
  rcases h with houtside | hempty
  · exact houtside
  · have hnone := List.filterMap_eq_nil_iff.mp hempty earlier hearlier
    rw [if_pos hslot] at hnone
    cases hnone

end Ledger

/-! ## What can be seen -/

/-- The responses that entries report as thrown away for a reason, in order. -/
def reported (reason : Discard) (entries : List LogEntry) : List Document :=
  entries.filterMap fun entry =>
    entry.discarded?.bind fun report => if report.1 = reason then some report.2 else none

theorem reported_append (reason : Discard) (entries more : List LogEntry) :
    reported reason (entries ++ more) = reported reason entries ++ reported reason more :=
  List.filterMap_append

/-- An end of a call that only a response can give. -/
def isAnswer : Option (Except CommandError Document) → Bool
  | some (.ok _) | some (.error (.rejected ..)) => true
  | _ => false

def AnsweredBy (response : Document) (call : Command × Option (Except CommandError Document)) :
    Prop :=
  call.2 = some (classify call.1.name response)

theorem isAnswer_classify (command : String) (response : Document) :
    isAnswer (some (classify command response)) = true := by
  unfold classify
  split <;> rfl

theorem Slot.drain_eq (slot : Slot) :
    slot.drain = ({ slot with pending := none }, slot.pending.toList.length,
      slot.pending.toList.map .strayResponse) := by
  obtain ⟨awaiting, pending, connected⟩ := slot
  cases pending <;> rfl

namespace Console

/-- All entries that steps give, in order. -/
def logged (console : Console) (steps : List Step) : List LogEntry :=
  (console.run steps).2.flatMap (·.log)

/-- The end of the call under way, once it is known. -/
def decided (console : Console) : List (Command × Option (Except CommandError Document)) :=
  match console.call with
  | some ⟨command, .decided outcome⟩ => [(command, some outcome)]
  | _ => []

/-- The calls that were answered, in order, the one under way included. -/
def answers (console : Console) (steps : List Step) :
    List (Command × Option (Except CommandError Document)) :=
  (console.outcomes steps ++ (console.after steps).decided).filter (isAnswer ·.2)

/-- The call that a step answers: the end of a wait for which there is a response. -/
def answeredNow (console : Console) : Step → List (Command × Option (Except CommandError Document))
  | .endWait =>
    match console.call, console.slot.pending with
    | some ⟨command, .written⟩, some response => [(command, some (classify command.name response))]
    | _, _ => []
  | _ => []

/-- **A call is answered where its wait ends and nowhere else**; the step that ends the call hands
on what was known. -/
theorem answers_step (console : Console) (s : Step) :
    ((console.step s).2.finished.toList ++ (console.step s).1.decided).filter (isAnswer ·.2) =
      console.decided.filter (isAnswer ·.2) ++ console.answeredNow s := by
  cases s with
  | deliver | disconnect =>
    exact (List.append_nil _).symm
  | drain command =>
    rw [step, decided, decided]
    split
    next call => exact (List.append_nil _).symm
    next idle => simp [idle, answeredNow]
  | begin | wrote | writeFailed reason =>
    rw [step, decided, decided]
    split
    next due => simp [due, answeredNow, isAnswer]
    · exact (List.append_nil _).symm
  | endWait =>
    rw [step, decided, decided]
    split
    next command written =>
      cases hslot : console.slot.pending with
      | some response =>
        simp [written, answeredNow, Slot.endWait, hslot, waitOutcome, isAnswer_classify]
      | none =>
        cases hconnected : console.slot.connected <;>
          simp [written, answeredNow, Slot.endWait, hslot, hconnected, waitOutcome, isAnswer]
    next other =>
      -- no call waits, so there is none that the end of a wait could answer
      have none_now : console.answeredNow .endWait = [] := by
        dsimp only [answeredNow]
        split
        next written _ => exact absurd written (other _)
        next => rfl
      rw [none_now, List.append_nil]
      rfl
  | release =>
    rw [step, decided, decided]
    split
    next due => simp [due, answeredNow]
    next due => simp [due, answeredNow, isAnswer]
    · exact (List.append_nil _).symm

/-! ## Keeping the ledger -/

/-- Where a response goes that arrives now. -/
def arrival (console : Console) : Place :=
  if !console.slot.awaiting then .discarded .idle
  else if console.slot.pending.isSome then .discarded .surplus
  else .pending

/-- Arriving is one of three things: being refused by a closed window, being refused by a full slot,
and going into an empty one. -/
theorem offer_cases (console : Console) (response : Document) :
    (console.arrival = .discarded .idle ∧
      console.slot.offer response = (console.slot, [.idleResponse response])) ∨
    (console.arrival = .discarded .surplus ∧
      console.slot.offer response = (console.slot, [.surplusResponse response])) ∨
    (console.arrival = .pending ∧ console.slot.pending = none ∧
      console.slot.offer response = ({ console.slot with pending := some response }, [])) := by
  unfold arrival
  cases hopen : console.slot.awaiting with
  | false => exact .inl ⟨rfl, Slot.offer_closed response hopen⟩
  | true =>
    rw [Slot.offer_open response hopen]
    cases hslot : console.slot.pending with
    | some waiting => exact .inr (.inl ⟨rfl, by rw [Slot.put, hslot]⟩)
    | none => exact .inr (.inr ⟨rfl, rfl, by rw [Slot.put, hslot]⟩)

/-- What a step writes into the ledger. -/
def post (console : Console) (ledger : Ledger) : Step → Ledger
  | .deliver response => ledger ++ [(response, console.arrival)]
  | .drain _ => if console.call.isNone then ledger.settle (.discarded .stray) else ledger
  | .endWait =>
    match console.call with
    | some ⟨_, .written⟩ => ledger.settle .answered
    | _ => ledger
  | _ => ledger

def ledgerFrom (console : Console) (ledger : Ledger) : List Step → Ledger
  | [] => ledger
  | s :: steps => ledgerFrom (console.step s).1 (console.post ledger s) steps

/-- The ledger of a history. -/
def ledger (timeout : Duration) (steps : List Step) : Ledger := (fresh timeout).ledgerFrom [] steps

/-- The ledger agrees with what can be seen: entries, ends of calls, and the slot. -/
structure Accounts (ledger : Ledger) (entries : List LogEntry)
    (ended : List (Command × Option (Except CommandError Document))) (console : Console) :
    Prop where
  /-- What was thrown away is reported, for its reason. -/
  reported : ∀ reason, reported reason entries = ledger.filed (.discarded reason)
  /-- What was taken answers a call. -/
  answered : List.Forall₂ AnsweredBy (ledger.filed .answered)
    ((ended ++ console.decided).filter (isAnswer ·.2))
  /-- What is pending is in the slot. -/
  pending : ledger.filed .pending = console.slot.pending.toList
  /-- Behind it nothing went in. -/
  inOrder : ledger.InOrder

namespace Accounts

variable {ledger : Ledger} {entries : List LogEntry}
  {ended : List (Command × Option (Except CommandError Document))} {console : Console}

theorem fresh (timeout : Duration) : Accounts [] [] [] (fresh timeout) where
  reported _ := rfl
  answered := .nil
  pending := rfl
  inOrder := List.Pairwise.nil

/-- What leaves slot, reports and answers as they are leaves the ledger as it is. -/
theorem keep (accounts : Accounts ledger entries ended console) {next : Console}
    {more : List LogEntry} (later : List (Command × Option (Except CommandError Document)))
    (slot : next.slot.pending = console.slot.pending)
    (silent : ∀ reason, CavityConsole.reported reason more = [])
    (known : (later ++ next.decided).filter (isAnswer ·.2) =
      console.decided.filter (isAnswer ·.2)) :
    Accounts ledger (entries ++ more) (ended ++ later) next where
  reported reason := by rw [reported_append, silent, List.append_nil, accounts.reported]
  answered := by
    have answered := accounts.answered
    rw [List.filter_append] at answered
    rwa [List.append_assoc, List.filter_append, known]
  pending := slot ▸ accounts.pending
  inOrder := accounts.inOrder

/-- A response that arrives is reported or goes into the slot. -/
theorem deliver (accounts : Accounts ledger entries ended console) (response : Document) :
    Accounts (ledger ++ [(response, console.arrival)])
      (entries ++ (console.slot.offer response).2) ended
      { console with slot := (console.slot.offer response).1 } := by
  obtain ⟨reports, answers, slot, inOrder⟩ := accounts
  have answered : List.Forall₂ AnsweredBy (ledger.filed .answered ++ [])
      ((ended ++ console.decided).filter (isAnswer ·.2)) := by rwa [List.append_nil]
  rcases console.offer_cases response with ⟨place, offer⟩ | ⟨place, offer⟩ | ⟨place, empty, offer⟩
  all_goals
    rw [place, offer]
    refine ⟨fun reason => ?_, ?_, ?_, ?_⟩
    · rw [reported_append, reports, Ledger.filed_append]
      cases reason <;> rfl
    · rw [Ledger.filed_append]
      exact answered
    · rw [Ledger.filed_append, slot]
      simp [Ledger.filed_cons, *]
  · exact inOrder.concat (.inl rfl)
  · exact inOrder.concat (.inl rfl)
  · exact inOrder.concat (.inr (by rw [slot, empty]; rfl))

/-- A response that leaves the slot is reported or answers the call. -/
theorem settle (accounts : Accounts ledger entries ended console) {next : Console} {place : Place}
    {more : List LogEntry} {later : List (Command × Option (Except CommandError Document))}
    (calls : List (Command × Option (Except CommandError Document)))
    (gone : next.slot.pending = none) (inside : place.isOutside = false) (left : place ≠ .pending)
    (report : ∀ reason, CavityConsole.reported reason more =
      if place = .discarded reason then console.slot.pending.toList else [])
    (known : (later ++ next.decided).filter (isAnswer ·.2) =
      console.decided.filter (isAnswer ·.2) ++ calls)
    (answer : List.Forall₂ AnsweredBy
      (if place = .answered then console.slot.pending.toList else []) calls) :
    Accounts (Ledger.settle ledger place) (entries ++ more) (ended ++ later) next := by
  obtain ⟨reports, answers, slot, inOrder⟩ := accounts
  have settled := Ledger.filed_settle inOrder inside left
  refine ⟨fun reason => ?_, ?_, ?_, inOrder.settle left⟩
  · rw [reported_append, reports, report]
    split
    next h => rw [← h, settled, slot]
    next h => rw [Ledger.filed_settle_of_ne (Ne.symm h) (by simp), List.append_nil]
  · have taken : (Ledger.settle ledger place).filed .answered = ledger.filed .answered ++
        if place = .answered then console.slot.pending.toList else [] := by
      split
      next h => rw [← h, settled, slot]
      next h => rw [Ledger.filed_settle_of_ne (Ne.symm h) (by simp), List.append_nil]
    rw [taken, List.append_assoc, List.filter_append, known, ← List.append_assoc,
      ← List.filter_append]
    exact List.rel_append answers answer
  · rw [Ledger.filed_pending_settle left, gone]
    rfl

/-- **Every step keeps the accounts.** -/
theorem step (accounts : Accounts ledger entries ended console) (s : Step) :
    Accounts (console.post ledger s) (entries ++ (console.step s).2.log)
      (ended ++ (console.step s).2.finished.toList) (console.step s).1 := by
  have known := console.answers_step s
  cases s with
  | deliver response =>
    have delivered := accounts.deliver response
    rw [← List.append_nil ended] at delivered
    exact delivered
  | disconnect => exact accounts.keep [] rfl (fun _ => rfl) rfl
  | begin | wrote | writeFailed reason | release =>
    -- these move the call on and leave the slot's response where it is
    refine accounts.keep _ ?_ (fun reason => ?_) (known.trans (List.append_nil _))
    · rw [Console.step]
      split <;> rfl
    · rw [Console.step]
      split <;> rfl
  | drain command =>
    rw [post]
    cases hcall : console.call with
    | some call =>
      have still : console.step (.drain command) = (console, {}) := by rw [Console.step, hcall]
      rw [still] at known ⊢
      exact accounts.keep _ rfl (fun _ => rfl) (known.trans (List.append_nil _))
    | none =>
      rw [Console.step, hcall, Slot.drain_eq] at known ⊢
      refine accounts.settle [] rfl rfl (by simp) (fun reason => ?_) known .nil
      dsimp only
      cases console.slot.pending <;> cases reason <;> rfl
  | endWait =>
    rw [post]
    split
    next command written =>
      rw [answeredNow, written] at known
      refine accounts.settle _ ?_ rfl (by simp) (fun reason => ?_) known ?_
      · rw [Console.step, written]
        exact Slot.endWait_pending _
      · rw [Console.step, written]
        rfl
      · cases hslot : console.slot.pending with
        | none => exact .nil
        | some response => exact .cons rfl .nil
    next other =>
      have still : console.step .endWait = (console, {}) := by
        rw [Console.step]
        split
        next command written => exact absurd written (other command)
        · rfl
      rw [still]
      exact accounts.keep [] rfl (fun _ => rfl) rfl

end Accounts

/-! ## Histories -/

section Histories

variable (console : Console) (steps : List Step)

theorem ledgerFrom_append (ledger : Ledger) (later : List Step) :
    console.ledgerFrom ledger (steps ++ later) =
      (console.after steps).ledgerFrom (console.ledgerFrom ledger steps) later := by
  induction steps generalizing console ledger with
  | nil => rfl
  | cons s steps ih => exact ih (console.step s).1 (console.post ledger s)

theorem arrived_post (ledger : Ledger) (s : Step) :
    (console.post ledger s).map Prod.fst = ledger.map Prod.fst ++ deliveries [s] := by
  cases s with
  | deliver response => exact List.map_append
  | drain command =>
    rw [post]
    split
    · exact (Ledger.map_fst_settle _ _).trans (List.append_nil _).symm
    · exact (List.append_nil _).symm
  | endWait =>
    rw [post]
    split
    · exact (Ledger.map_fst_settle _ _).trans (List.append_nil _).symm
    · exact (List.append_nil _).symm
  | disconnect | begin | wrote | writeFailed | release => exact (List.append_nil _).symm

theorem arrived_ledgerFrom (ledger : Ledger) :
    (console.ledgerFrom ledger steps).map Prod.fst = ledger.map Prod.fst ++ deliveries steps := by
  induction steps generalizing console ledger with
  | nil => exact (List.append_nil _).symm
  | cons s steps ih =>
    rw [ledgerFrom, ih, arrived_post, List.append_assoc, ← deliveries_append]
    rfl

variable {console steps}

theorem Accounts.after (steps : List Step) {ledger : Ledger} {entries : List LogEntry}
    {ended : List (Command × Option (Except CommandError Document))}
    (accounts : Accounts ledger entries ended console) :
    Accounts (console.ledgerFrom ledger steps) (entries ++ console.logged steps)
      (ended ++ console.outcomes steps) (console.after steps) := by
  induction steps generalizing console ledger entries ended with
  | nil => simpa [ledgerFrom, logged, outcomes, run] using accounts
  | cons s steps ih =>
    have later := ih (accounts.step s)
    rw [List.append_assoc, List.append_assoc, ← outcomes_cons] at later
    exact later

theorem settled_post {ledger : Ledger} {s : Step} {n : Nat} {response : Document} {place : Place}
    (h : ledger[n]? = some (response, place)) (settled : place ≠ .pending) :
    (console.post ledger s)[n]? = some (response, place) := by
  have kept : ∀ other, (Ledger.settle ledger other)[n]? = some (response, place) := by
    intro other
    unfold Ledger.settle
    rw [List.getElem?_map, h]
    simp [settled]
  cases s with
  | deliver arrived =>
    rw [post, List.getElem?_append_left (List.getElem?_eq_some_iff.mp h).1]
    exact h
  | drain command =>
    rw [post]
    split
    · exact kept _
    · exact h
  | endWait =>
    rw [post]
    split
    · exact kept _
    · exact h
  | disconnect | begin | wrote | writeFailed | release => exact h

theorem settled_ledgerFrom {ledger : Ledger} {n : Nat} {response : Document} {place : Place}
    (h : ledger[n]? = some (response, place)) (settled : place ≠ .pending) :
    (console.ledgerFrom ledger steps)[n]? = some (response, place) := by
  induction steps generalizing console ledger with
  | nil => exact h
  | cons s steps ih => exact ih (settled_post h settled)

end Histories

/-! ## What draining reports -/

/-- The responses that a step reports as left over. -/
def strays (console : Console) (s : Step) : List Document :=
  reported .stray (console.step s).2.log

/-- **The count in a recovery is the number of responses reported just before it**, and there is a
recovery exactly when that is not zero. -/
theorem log_drain {console : Console} (command : Command) (idle : console.call = none) :
    (console.step (.drain command)).2.log =
      (console.strays (.drain command)).map .strayResponse ++
        if (console.strays (.drain command)).length = 0 then []
        else [.recovered command.name (console.strays (.drain command)).length] := by
  rw [strays, step, idle, Slot.drain_eq]
  dsimp only
  cases console.slot.pending <;> rfl

/-- A recovery is reported where a call begins and nowhere else. -/
theorem drain_of_recovered {console : Console} {s : Step} {name : String} {count : Nat}
    (h : .recovered name count ∈ (console.step s).2.log) :
    ∃ command, s = .drain command ∧ console.call = none := by
  cases s with
  | drain command =>
    cases hcall : console.call with
    | none => exact ⟨command, rfl, rfl⟩
    | some call =>
      rw [step, hcall] at h
      cases h
  | deliver response =>
    change _ ∈ (console.slot.offer response).2 at h
    rcases console.offer_cases response with ⟨-, offer⟩ | ⟨-, offer⟩ | ⟨-, -, offer⟩
    all_goals
      rw [offer] at h
      simp at h
  | disconnect => cases h
  | begin | wrote | writeFailed | endWait | release =>
    rw [step] at h
    split at h <;> cases h

/-! ## The law -/

/-- **Every response that arrives is accounted for**, at every moment of every history:

* the ledger holds the responses that arrived, each once and with one place;
* those thrown away for a reason are the ones reported for it, entry by entry, with the response in
  the entry and its level;
* those taken as answers answer one call each, and no call is answered otherwise;
* the one that is left is in the slot;
* what is no longer in the slot stays where it is;
* a call that begins reports what was left over and then the count, unless there is none, and a
  count is reported nowhere else. -/
theorem every_response_accounted (timeout : Duration) (steps : List Step) :
    (ledger timeout steps).map Prod.fst = deliveries steps ∧
    (∀ reason, reported reason ((fresh timeout).logged steps) =
      (ledger timeout steps).filed (.discarded reason)) ∧
    (∀ entry ∈ (fresh timeout).logged steps, ∀ reason response,
      entry.discarded? = some (reason, response) →
      entry.level = (if reason = .idle then .warning else .error) ∧
        entry.fields = [("response", response.compact)]) ∧
    List.Forall₂ AnsweredBy ((ledger timeout steps).filed .answered)
      ((fresh timeout).answers steps) ∧
    (ledger timeout steps).filed .pending = ((fresh timeout).after steps).slot.pending.toList ∧
    (∀ (later : List Step) (n : Nat) (response : Document) (place : Place),
      (ledger timeout steps)[n]? = some (response, place) → place ≠ .pending →
      (ledger timeout (steps ++ later))[n]? = some (response, place)) ∧
    (∀ command, ((fresh timeout).after steps).call = none →
      (((fresh timeout).after steps).step (.drain command)).2.log =
        (((fresh timeout).after steps).strays (.drain command)).map .strayResponse ++
          if (((fresh timeout).after steps).strays (.drain command)).length = 0 then []
          else [.recovered command.name
            (((fresh timeout).after steps).strays (.drain command)).length]) ∧
    (∀ s name count, .recovered name count ∈ (((fresh timeout).after steps).step s).2.log →
      ∃ command, s = .drain command ∧ ((fresh timeout).after steps).call = none) := by
  have accounts := (Accounts.fresh timeout).after steps
  refine ⟨arrived_ledgerFrom _ _ _, accounts.reported, fun entry _ _ _ => entry.shows_discarded,
    accounts.answered, accounts.pending, fun later n response place h settled => ?_,
    fun command => log_drain command, fun s name count => drain_of_recovered⟩
  rw [ledger, ledgerFrom_append]
  exact settled_ledgerFrom h settled

/-- A response to a command that went well, with a number to tell it apart. -/
def numbered (n : Nat) : Document := [("number", .number (.integer n)), ("response", .string "ok")]

/-- A response in vain; two in the window of a write that fails, one of them left over; one that
answers the next command, and one behind it. -/
def fiveResponses : List Step :=
  [.deliver (numbered 1), .drain .stop, .begin, .deliver (numbered 2), .deliver (numbered 3),
    .writeFailed "gone", .release, .drain .version, .begin, .wrote, .deliver (numbered 4),
    .endWait, .deliver (numbered 5), .release]

/-- The places of the five responses, and what the next call reports. -/
theorem every_response_accounted_five :
    (ledger defaultTimeout fiveResponses).map Prod.snd =
      [.discarded .idle, .discarded .stray, .discarded .surplus, .answered, .pending] ∧
    (ledger defaultTimeout (fiveResponses ++ [.drain .skip]))[1]? =
      some (numbered 2, .discarded .stray) ∧
    (((fresh defaultTimeout).after fiveResponses).step (.drain .skip)).2.log =
      [.strayResponse (numbered 5), .recovered "skip" 1] := by
  obtain ⟨-, -, -, -, -, settled, drained, -⟩ :=
    every_response_accounted defaultTimeout fiveResponses
  refine ⟨rfl, settled [.drain .skip] 1 (numbered 2) (.discarded .stray) rfl (by simp), ?_⟩
  exact (drained .skip rfl).trans rfl

end Console

end CavityConsole
