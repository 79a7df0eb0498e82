import DemandPaging.Proofs.Bookkeeping

set_option autoImplicit false

namespace DemandPaging

variable [Platform]

def Request.Fits : Request → Reply → Prop
  | .allocate _ template, .granted grant => grant.size = template.shape.size
  | .allocate _ _, .failed (.chunkExceedsBudget _ _) => True
  | .allocate _ _, .failed (.resource _ _) => True
  | .allocate _ _, .failed .shuttingDown => True
  | .free _, .done => True
  | .reset _, .done => True
  | .reset _, .failed .shuttingDown => True
  | _, _ => False

theorem Request.refusal_fits (request : Request) (reply : Reply) (refused : request.refusal? = some reply) :
    request.Fits reply := by
  cases request <;> simp only [refusal?, Option.some.injEq, reduceCtorEq] at refused
  all_goals
    subst refused
    trivial

namespace Mailbox

def Progress.ofRefusal (request : Request) : Progress :=
  match request.refusal? with
  | some reply => .answered reply
  | none => .dropped

theorem refuse_eq (m : Mailbox) (ticket : Nat) (request : Request) :
    m.refuse ticket request = m.setProgress ticket (.ofRefusal request) := by
  rw [refuse, Progress.ofRefusal]
  cases request.refusal? with
  | none => rfl
  | some reply => rfl

def asked (m : Mailbox) (i : Nat) : Option Request := (m.tickets[i]?).map Ticket.request

def grantedTicket (id : ObjectId) (template : Template) (grant : Grant) : Ticket :=
  ⟨.allocate id template, .answered (.granted grant)⟩

-- A client holds a handle: its object was granted, and nobody has asked to free it.
def Holds (m : Mailbox) (id : ObjectId) (grant : Grant) : Prop :=
  (∃ (i : Nat) (template : Template), m.tickets[i]? = some (grantedTicket id template grant)) ∧
    ∀ i, m.asked i ≠ some (.free id)

-- What clients may ask for: an object of some size and with a filler, under a new number, and all else with a handle only.
def Admits (m : Mailbox) : Request → Prop
  | .allocate id template =>
    template.filler.isSome = true ∧ template.shape.size ≠ 0 ∧ ∀ i other, m.asked i ≠ some (.allocate id other)
  | .free id => ∃ grant, m.Holds id grant
  | .reset id => ∃ grant, m.Holds id grant
  | .shutdown => True

structure History (m : Mailbox) : Prop where
  allocations : ∀ i id template, m.asked i = some (.allocate id template) →
    template.filler.isSome = true ∧ template.shape.size ≠ 0
  ids : ∀ i j id first second, m.asked i = some (.allocate id first) → m.asked j = some (.allocate id second) → i = j
  frees : ∀ i j id, m.asked i = some (.free id) → m.asked j = some (.free id) → i = j
  resets : ∀ i j id, m.asked i = some (.reset id) → m.asked j = some (.free id) → i < j
  known : ∀ j id, m.asked j = some (.free id) ∨ m.asked j = some (.reset id) →
    ∃ (i : Nat) (template : Template) (grant : Grant), m.tickets[i]? = some (grantedTicket id template grant)

-- The tickets from number `n` on wait in line, and those before it have been taken out.
structure Line (m : Mailbox) (n : Nat) : Prop where
  isOpen : m.isOpen = true
  inside : n ≤ m.tickets.size
  queue : m.queue = List.range' n (m.tickets.size - n)
  waiting : ∀ i t, n ≤ i → m.tickets[i]? = some t → t.progress = .queued

structure Settled (m : Mailbox) (n : Nat) (progress : Progress) (next : Mailbox) : Prop where
  tickets : ∀ i, next.tickets[i]? = (m.tickets[i]?).map fun t => if i = n then { t with progress } else t
  isOpen : next.isOpen = m.isOpen
  queue : next.queue = m.queue.tail

section

variable (m next : Mailbox) (n : Nat) (progress : Progress)

theorem tickets_set_progress (i : Nat) :
    (m.setProgress n progress).tickets[i]? = (m.tickets[i]?).map fun t => if i = n then { t with progress } else t := by
  simp only [setProgress, Array.getElem?_modify]
  by_cases same : i = n
  · simp [same]
  · have other : ¬ n = i := fun equal => same equal.symm
    simp [same, other]

theorem asked_settled (settled : m.Settled n progress next) (i : Nat) : next.asked i = m.asked i := by
  rw [asked]
  rw [settled.tickets, Option.map_map]
  congr 1
  funext t
  by_cases same : i = n <;> simp [same]

theorem settled_set_progress (queue : List Nat) (taken : Progress) (rest : queue = m.queue.tail) :
    m.Settled n progress ((({ m with queue }).setProgress n taken).setProgress n progress) := by
  refine ⟨fun i => ?_, rfl, rest⟩
  rw [tickets_set_progress, tickets_set_progress, Option.map_map]
  congr 1
  funext t
  by_cases same : i = n <;> simp [same]

theorem size_of_asked (same : ∀ i, next.asked i = m.asked i) : next.tickets.size = m.tickets.size := by
  have inside : ∀ (o : Mailbox) i, i < o.tickets.size ↔ o.asked i ≠ none := by
    intro o i
    rw [asked, ne_eq, Option.map_eq_none_iff, Array.getElem?_eq_none_iff, Nat.not_le]
  have up := (inside next m.tickets.size).trans ((same m.tickets.size).symm ▸ (inside m m.tickets.size).symm)
  have down := (inside next next.tickets.size).trans ((same next.tickets.size).symm ▸ (inside m next.tickets.size).symm)
  omega

theorem size_settled (settled : m.Settled n progress next) : next.tickets.size = m.tickets.size :=
  size_of_asked m next (asked_settled m next n progress settled)

theorem answered_settled (line : m.Line n) (settled : m.Settled n progress next) (i : Nat) (t : Ticket) (reply : Reply)
    (there : m.tickets[i]? = some t) (answered : t.progress = .answered reply) : next.tickets[i]? = some t := by
  have other : i ≠ n := by
    intro same
    subst same
    have queued := line.waiting i t (Nat.le_refl i) there
    rw [answered] at queued
    cases queued
  rw [settled.tickets, there, Option.map_some, if_neg other]

theorem history_settled (line : m.Line n) (history : m.History) (settled : m.Settled n progress next) : next.History := by
  have asked := asked_settled m next n progress settled
  constructor
  · intro i id template
    rw [asked]
    exact history.allocations i id template
  · intro i j id first second
    rw [asked, asked]
    exact history.ids i j id first second
  · intro i j id
    rw [asked, asked]
    exact history.frees i j id
  · intro i j id
    rw [asked, asked]
    exact history.resets i j id
  · intro j id
    rw [asked]
    intro uses
    obtain ⟨i, template, grant, there⟩ := history.known j id uses
    exact ⟨i, template, grant, answered_settled m next n progress line settled i _ _ there rfl⟩

theorem line_settled (line : m.Line n) (settled : m.Settled n progress next) (some : n < m.tickets.size) :
    next.Line (n + 1) := by
  have size := size_settled m next n progress settled
  refine ⟨settled.isOpen.trans line.isOpen, size ▸ some, ?_, fun i t later there => ?_⟩
  · have left : m.tickets.size - n = m.tickets.size - (n + 1) + 1 := by omega
    rw [settled.queue, line.queue, size, left, List.range'_succ, List.tail_cons]
  · rw [settled.tickets, Option.map_eq_some_iff] at there
    obtain ⟨before, beforeThere, same⟩ := there
    rw [if_neg (by omega)] at same
    exact same ▸ line.waiting i before (by omega) beforeThere

theorem next_line (line : m.Line n) :
    (m.next = none ∧ m.tickets.size ≤ n) ∨
      ∃ t, m.tickets[n]? = some t ∧ n < m.tickets.size ∧
        m.next = some (n, t.request, ({ m with queue := m.queue.tail }).setProgress n .held) := by
  by_cases some : n < m.tickets.size
  · have left : m.tickets.size - n = m.tickets.size - (n + 1) + 1 := by omega
    refine Or.inr ⟨m.tickets[n], Array.getElem?_eq_getElem some, some, ?_⟩
    have queue := line.queue
    rw [left, List.range'_succ] at queue
    simp only [next, queue, Array.getElem?_eq_getElem some, Option.map_some, List.tail_cons]
  · have left : m.tickets.size - n = 0 := by omega
    refine Or.inl ⟨?_, by omega⟩
    have queue := line.queue
    rw [left, List.range'_zero] at queue
    simp only [next, queue]

end

section

variable (m : Mailbox) (request : Request)

theorem tickets_enqueue (i : Nat) : (m.enqueue request).tickets[i]? =
    if i = m.tickets.size then some ⟨request, if m.isOpen then .queued else .dropped⟩ else m.tickets[i]? := by
  by_cases isOpen : m.isOpen = true <;> simp [enqueue, isOpen, Array.getElem?_push]

theorem asked_enqueue (i : Nat) :
    (m.enqueue request).asked i = if i = m.tickets.size then some request else m.asked i := by
  rw [asked, tickets_enqueue]
  by_cases new : i = m.tickets.size <;> simp [new, asked]

theorem size_enqueue : (m.enqueue request).tickets.size = m.tickets.size + 1 := by
  by_cases isOpen : m.isOpen = true <;> simp [enqueue, isOpen]

theorem open_enqueue : (m.enqueue request).isOpen = m.isOpen := by
  by_cases isOpen : m.isOpen = true <;> simp [enqueue, isOpen]

theorem sent_tickets : (m.send request).2.tickets = (m.enqueue request).tickets := by
  rw [send]
  by_cases isOpen : m.isOpen = true <;> simp [isOpen, ring]

theorem tickets_send (i : Nat) : ∃ progress, (m.send request).2.tickets[i]? =
    if i = m.tickets.size then some ⟨request, progress⟩ else m.tickets[i]? :=
  ⟨_, sent_tickets m request ▸ tickets_enqueue m request i⟩

theorem asked_send (i : Nat) :
    (m.send request).2.asked i = if i = m.tickets.size then some request else m.asked i := by
  rw [asked, sent_tickets]
  exact asked_enqueue m request i

theorem tickets_send_old (i : Nat) (t : Ticket) (there : m.tickets[i]? = some t) :
    (m.send request).2.tickets[i]? = some t := by
  have old := (Array.getElem?_eq_some_iff.mp there).1
  obtain ⟨progress, tickets⟩ := tickets_send m request i
  rw [tickets, if_neg (Nat.ne_of_lt old), there]

theorem asked_lt (i : Nat) (asked : m.asked i = some request) : i < m.tickets.size := by
  obtain ⟨t, there, -⟩ := Option.map_eq_some_iff.mp asked
  exact (Array.getElem?_eq_some_iff.mp there).1

theorem history_sent (history : m.History) (admits : m.Admits request) : (m.send request).2.History := by
  have asked := asked_send m request
  have bounded : ∀ i r, m.asked i = some r → i < m.tickets.size := fun i r => m.asked_lt r i
  constructor
  · intro i id template
    rw [asked]
    split
    · intro same
      cases same
      exact ⟨admits.1, admits.2.1⟩
    · exact history.allocations i id template
  · intro i j id first second
    rw [asked, asked]
    split <;> split <;> intro left right
    · omega
    · cases left
      exact absurd right (admits.2.2 j second)
    · cases right
      exact absurd left (admits.2.2 i first)
    · exact history.ids i j id first second left right
  · intro i j id
    rw [asked, asked]
    split <;> split <;> intro left right
    · omega
    · cases left
      obtain ⟨_, -, unfreed⟩ := admits
      exact absurd right (unfreed j)
    · cases right
      obtain ⟨_, -, unfreed⟩ := admits
      exact absurd left (unfreed i)
    · exact history.frees i j id left right
  · intro i j id
    rw [asked, asked]
    split <;> split <;> intro left right
    · cases left
      cases right
    · cases left
      obtain ⟨_, -, unfreed⟩ := admits
      exact absurd right (unfreed j)
    · have := bounded i _ left
      omega
    · exact history.resets i j id left right
  · intro j id
    rw [asked]
    have held : ∀ grant, m.Holds id grant → ∃ (i : Nat) (template : Template) (grant : Grant),
        (m.send request).2.tickets[i]? = some (grantedTicket id template grant) := by
      intro grant given
      obtain ⟨⟨i, template, there⟩, -⟩ := given
      exact ⟨i, template, grant, tickets_send_old m request i _ there⟩
    split
    · intro given
      obtain same | same := given
      · cases same
        obtain ⟨grant, holds⟩ := admits
        exact held grant holds
      · cases same
        obtain ⟨grant, holds⟩ := admits
        exact held grant holds
    · intro uses
      obtain ⟨i, template, grant, there⟩ := history.known j id uses
      exact ⟨i, template, grant, tickets_send_old m request i _ there⟩

theorem line_enqueued (n : Nat) (line : m.Line n) : (m.enqueue request).Line n := by
  have isOpen := line.isOpen
  simp only [enqueue, isOpen, if_true]
  have inside := line.inside
  refine ⟨rfl, ?_, ?_, fun i t later there => ?_⟩
  · rw [Array.size_push]
    omega
  · have right : m.tickets.size + 1 - n = m.tickets.size - n + 1 := by omega
    have last : n + 1 * (m.tickets.size - n) = m.tickets.size := by omega
    rw [line.queue, Array.size_push, right, List.range'_concat, last]
  · rw [Array.getElem?_push] at there
    split at there
    · cases there
      rfl
    · exact line.waiting i t later there

theorem line_sent (n : Nat) (line : m.Line n) : (m.send request).2.Line n := by
  have enqueued := line_enqueued m request n line
  rw [send, if_pos line.isOpen]
  exact ⟨enqueued.isOpen, enqueued.inside, enqueued.queue, enqueued.waiting⟩

end

def Fitting (m : Mailbox) : Prop :=
  ∀ (i : Nat) (t : Ticket) (reply : Reply), m.tickets[i]? = some t → t.progress = .answered reply → t.request.Fits reply

section

variable (m next : Mailbox)

theorem fitting_moved (n : Nat) (progress : Progress) (fitting : m.Fitting)
    (tickets : ∀ i, next.tickets[i]? = (m.tickets[i]?).map fun t => if i = n then { t with progress } else t)
    (fits : ∀ (t : Ticket) (reply : Reply), m.tickets[n]? = some t → progress = .answered reply → t.request.Fits reply) :
    next.Fitting := by
  intro i t reply there answered
  rw [tickets, Option.map_eq_some_iff] at there
  obtain ⟨before, beforeThere, same⟩ := there
  by_cases moved : i = n
  · subst moved
    rw [if_pos rfl] at same
    cases same
    exact fits before reply beforeThere answered
  · rw [if_neg moved] at same
    subst same
    exact fitting i before reply beforeThere answered

theorem fitting_sent (request : Request) (fitting : m.Fitting) : (m.send request).2.Fitting := by
  intro i t reply there answered
  by_cases isOpen : m.isOpen = true
  · simp only [send, enqueue, ring, isOpen, if_true, Array.getElem?_push] at there
    split at there
    · cases there
      cases answered
    · exact fitting i t reply there answered
  · simp only [send, enqueue, isOpen, Bool.false_eq_true, if_false, Array.getElem?_push] at there
    split at there
    · cases there
      cases answered
    · exact fitting i t reply there answered

theorem tickets_drop_all (queue : List Nat) (i : Nat) : (queue.foldl drop m).tickets[i]? =
    (m.tickets[i]?).map fun t => if i ∈ queue then { t with progress := .dropped } else t := by
  induction queue generalizing m with
  | nil => simp
  | cons ticket rest ih =>
      rw [List.foldl_cons, ih, drop, tickets_set_progress, Option.map_map]
      congr 1
      funext t
      by_cases same : i = ticket <;> by_cases later : i ∈ rest <;> simp [same, later]

theorem tickets_close (i : Nat) : m.close.tickets[i]? =
    (m.tickets[i]?).map fun t => if i ∈ m.queue then { t with progress := .dropped } else t :=
  tickets_drop_all m m.queue i

theorem asked_close (i : Nat) : m.close.asked i = m.asked i := by
  rw [asked, asked, tickets_close, Option.map_map]
  congr 1
  funext t
  by_cases queued : i ∈ m.queue <;> simp [queued]

theorem fitting_close (fitting : m.Fitting) : m.close.Fitting := by
  intro i t reply there answered
  rw [tickets_close, Option.map_eq_some_iff] at there
  obtain ⟨before, beforeThere, same⟩ := there
  by_cases queued : i ∈ m.queue
  · rw [if_pos queued] at same
    subst same
    cases answered
  · rw [if_neg queued] at same
    subst same
    exact fitting i before reply beforeThere answered

theorem next_cases (ticket : Nat) (request : Request) (taken : m.next = some (ticket, request, next)) :
    ∃ t, m.tickets[ticket]? = some t ∧ t.request = request ∧
      next = ({ m with queue := m.queue.tail }).setProgress ticket .held := by
  rw [Mailbox.next] at taken
  cases queue : m.queue with
  | nil => simp [queue] at taken
  | cons front rest =>
      simp only [queue, Option.map_eq_some_iff] at taken
      obtain ⟨t, there, same⟩ := taken
      cases same
      exact ⟨t, there, rfl, rfl⟩

theorem settled_of_next (ticket : Nat) (request : Request) (progress : Progress)
    (taken : m.next = some (ticket, request, next)) :
    m.queue = ticket :: m.queue.tail ∧ m.asked ticket = some request ∧
      m.Settled ticket progress (next.setProgress ticket progress) := by
  obtain ⟨t, there, rfl, rfl⟩ := next_cases m next ticket request taken
  refine ⟨?_, by rw [asked, there, Option.map_some], settled_set_progress m ticket progress _ .held rfl⟩
  rw [Mailbox.next] at taken
  cases queue : m.queue with
  | nil => simp [queue] at taken
  | cons front rest =>
      simp only [queue, Option.map_eq_some_iff, Prod.mk.injEq] at taken
      obtain ⟨_, -, rfl, -⟩ := taken
      rfl

theorem fitting_refused (ticket : Nat) (request : Request) (fitting : m.Fitting)
    (taken : m.next = some (ticket, request, next)) :
    (next.refuse ticket request).Fitting ∧ ∀ i, (next.refuse ticket request).asked i = m.asked i := by
  obtain ⟨-, asked, settled⟩ := settled_of_next m next ticket request (.ofRefusal request) taken
  rw [refuse_eq]
  refine ⟨fitting_moved m _ ticket _ fitting settled.tickets fun t reply there answered => ?_,
    asked_settled m _ ticket _ settled⟩
  rw [Mailbox.asked, there, Option.map_some, Option.some.injEq] at asked
  rw [Progress.ofRefusal] at answered
  cases refused : request.refusal? with
  | none =>
      rw [refused] at answered
      cases answered
  | some own =>
      rw [refused] at answered
      cases answered
      exact asked ▸ request.refusal_fits reply refused

end

end Mailbox

end DemandPaging
