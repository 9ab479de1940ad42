import Lexis.Proofs.Progress
import Lexis.Proofs.Scan.Call

/-!
# Tokens that are given back

A scanner may be given tokens back at any time, from wherever they come, and may be
told to forget them.  They stand in a queue in front of the tokens of the text: as
long as there are any, the oldest one is the next token, and the scan of the text
goes on behind them as if they had never been there.

* `Request`, `Event`, `Scanner.history`: what is asked for, and what comes of it;
* `Request.conserves`, `Scanner.history_conserves`: no token in the queue gets lost,
  comes twice or overtakes another one;
* `Scanner.next_withTokens`: a call at an empty queue does not depend on the past of
  the queue;
* `Abreast`, `Abreast.run`, `Abreast.afterAll`: the scan of the text is where it would
  be without the queue;
* `Scanner.pushback_fifo`: all of it together.
-/

namespace Lexis

/-! ### Requests and what comes of them -/

/-- What may be asked for while a text is scanned. -/
inductive Request where
  /-- The next token. -/
  | next
  /-- To take a token back. -/
  | pushBack (t : Token)
  /-- To forget the tokens that were given back. -/
  | clearPending

/-- The call of the scanner that a request amounts to. -/
def Request.call : Request → Call
  | next => .next
  | pushBack t => .pushBack t
  | clearPending => .clearPending

/-- What comes of a request. -/
inductive Event where
  /-- A token is asked for, and there are some in the queue. -/
  | replayed (a : Except Fault Token)
  /-- A token is asked for, and there is none in the queue. -/
  | scanned (a : Except Fault Token)
  /-- A token goes into the queue. -/
  | pushed (t : Token)
  /-- These tokens are taken out of the queue and not handed out. -/
  | forgotten (ts : List Token)

/-- What comes of the request if this scanner meets with it. -/
def Request.event (s : Scanner) : Request → Event
  | next =>
    match s.pending with
    | [] => .scanned (answer (Scanner.next s))
    | _ :: _ => .replayed (answer (Scanner.next s))
  | pushBack t => .pushed t
  | clearPending => .forgotten s.pending

namespace Event

/-- What was handed out of the queue. -/
def replays : Event → List (Except Fault Token)
  | replayed a => [a]
  | _ => []

/-- What was handed out of the text. -/
def scans : Event → List (Except Fault Token)
  | scanned a => [a]
  | _ => []

/-- What went into the queue. -/
def pushes : Event → List Token
  | pushed t => [t]
  | _ => []

/-- What was forgotten. -/
def discards : Event → List Token
  | forgotten ts => ts
  | _ => []

/-- What left the queue, in either way. -/
def departures (e : Event) : List (Except Fault Token) := e.replays ++ e.discards.map .ok

end Event

namespace Scanner

/-- The scanner after the requests. -/
def afterAll (s : Scanner) (rs : List Request) : Scanner := rs.foldl (fun s r => r.call.run s) s

/-- What comes of the requests, one after the other. -/
def history (s : Scanner) : List Request → List Event
  | [] => []
  | r :: rs => r.event s :: history (r.call.run s) rs

/-- What a scanner yields to the call with this number, if it is called for tokens
and nothing else. -/
def plain (s : Scanner) (i : Nat) : Except Fault Token := answer (next (s.afterCalls i))

variable {s u : Scanner} {t : Token} {q : List Token}

@[simp] lemma afterAll_nil (s : Scanner) : s.afterAll [] = s := rfl

@[simp] lemma afterAll_cons (s : Scanner) (r : Request) (rs : List Request) :
    s.afterAll (r :: rs) = (r.call.run s).afterAll rs := rfl

/-! ### The queue -/

/-- The oldest token of the queue is handed out. -/
lemma next_of_pending (h : s.pending = t :: q) : next s = .ok t (s.withTokens t q) := by
  rw [next, h]
  rfl

end Scanner

/-- One request: what is in the queue and what goes into it is what leaves it and what
is in it then, in this order. -/
lemma Request.conserves (s : Scanner) (r : Request) :
    (s.pending ++ (r.event s).pushes).map Except.ok
      = (r.event s).departures ++ (r.call.run s).pending.map Except.ok := by
  cases r with
  | pushBack t => rfl
  | clearPending =>
    simp [event, Event.pushes, Event.departures, Event.replays, Event.discards,
      call, Call.run, Scanner.clearPending]
  | next =>
    cases hq : s.pending with
    | nil =>
      simp [event, hq, Event.pushes, Event.departures, Event.replays, Event.discards,
        call, Call.run, Scanner.pending_next hq]
    | cons t q =>
      simp [event, hq, Event.pushes, Event.departures, Event.replays, Event.discards,
        call, Call.run, Scanner.next_of_pending hq, answer, stateAfter]

namespace Scanner

variable {s u : Scanner} {t : Token} {q : List Token}

/-- **The queue**: what is in it and what goes into it is what leaves it and what is in
it at last, in this order. -/
theorem history_conserves (s : Scanner) (rs : List Request) :
    (s.pending ++ (s.history rs).flatMap Event.pushes).map Except.ok
      = (s.history rs).flatMap Event.departures ++ (s.afterAll rs).pending.map Except.ok := by
  induction rs generalizing s with
  | nil => simp [history]
  | cons r rs ih =>
    have hstep := r.conserves s
    have hrest := ih (r.call.run s)
    rw [List.map_append] at hstep hrest ⊢
    simp only [history, List.flatMap_cons, List.map_append, afterAll_cons]
    rw [← List.append_assoc, hstep, List.append_assoc, hrest, List.append_assoc]

/-- What leaves the queue is handed out or forgotten. -/
lemma length_departures (h : List Event) :
    (h.flatMap Event.departures).length
      = (h.flatMap Event.replays).length + (h.flatMap Event.discards).length := by
  induction h with
  | nil => rfl
  | cons e h ih =>
    simp only [List.flatMap_cons, List.length_append, Event.departures, List.length_map]
    omega

/-! ### The text behind the queue -/

/-- At an empty queue a call comes to the same whichever the current token is, and a
fault leaves the current token as it is. -/
lemma next_withTokens (hp : u.pending = []) (t : Token) :
    next (u.withTokens t []) = match next u with
      | .ok t' u' => .ok t' u'
      | .error f u' => .error f (u'.withTokens t []) := by
  have hscan := aloof_scan u t []
  cases hr : scan u with
  | ok t' u' =>
    rw [hr] at hscan
    rw [next_of_scan hp hr, next_of_scan rfl hscan]
    rfl
  | error f u' =>
    rw [hr] at hscan
    rw [next_of_scan_error hp hr, next_of_scan_error rfl hscan]

/-- A fault leaves the current token as it is. -/
lemma token_of_next_error {f : Fault} {s' : Scanner} (h : next s = .error f s') :
    s'.token = s.token := by
  cases hq : s.pending with
  | cons t q =>
    rw [next_of_pending hq] at h
    cases h
  | nil =>
    have htoken := token_stateAfter_scan s
    cases hr : scan s with
    | ok t u =>
      rw [next_of_scan hq hr] at h
      cases h
    | error f' u =>
      rw [next_of_scan_error hq hr] at h
      cases h
      rwa [hr] at htoken

end Scanner

/-- But for its tokens the second scanner is where the first one is after so many
calls. -/
def Abreast (s u : Scanner) (n : Nat) : Prop := u = (s.afterCalls n).withTokens u.token u.pending

namespace Abreast

open Scanner

variable {s u : Scanner} {n : Nat}

/-- It stays there with other tokens. -/
lemma withTokens (h : Abreast s u n) (t : Token) (q : List Token) :
    Abreast s (u.withTokens t q) n := by
  have heq := congrArg (fun v : Scanner => v.withTokens t q) h
  exact heq

/-- At an empty queue the next answer is that of the next call without the queue. -/
lemma answer_next (hp : s.pending = []) (h : Abreast s u n) (hq : u.pending = []) :
    answer (next u) = s.plain n := by
  unfold Abreast at h
  rw [hq] at h
  rw [h, next_withTokens (pending_afterCalls hp n), plain]
  cases next (s.afterCalls n) <;> rfl

/-- Then the scanner is where the first one is after one more call. -/
lemma next (hp : s.pending = []) (h : Abreast s u n) (hq : u.pending = []) :
    Abreast s (stateAfter (Scanner.next u)) (n + 1) := by
  unfold Abreast at h
  rw [hq] at h
  rw [Abreast, h, next_withTokens (pending_afterCalls hp n), afterCalls_succ]
  cases Scanner.next (s.afterCalls n) <;> rfl

/-- **One request** is met from the text behind the queue or does not touch it. -/
lemma run (hp : s.pending = []) (h : Abreast s u n) (r : Request) :
    (r.event u).scans = (List.range' n (r.event u).scans.length).map s.plain
      ∧ Abreast s (r.call.run u) (n + (r.event u).scans.length) := by
  cases r with
  | pushBack t => exact ⟨rfl, h.withTokens u.token (u.pending ++ [t])⟩
  | clearPending => exact ⟨rfl, h.withTokens u.token []⟩
  | next =>
    cases hq : u.pending with
    | nil =>
      simp only [Request.event, hq, Event.scans]
      exact ⟨by simp [h.answer_next hp hq], h.next hp hq⟩
    | cons t q =>
      simp only [Request.event, hq, Event.scans, Request.call, Call.run, next_of_pending hq]
      exact ⟨rfl, h.withTokens t q⟩

/-- **All requests**: what is handed out of the text is what calls without the queue
yield, one after the other. -/
theorem afterAll (hp : s.pending = []) (h : Abreast s u n) (rs : List Request) :
    (u.history rs).flatMap Event.scans
        = (List.range' n ((u.history rs).flatMap Event.scans).length).map s.plain
      ∧ Abreast s (u.afterAll rs) (n + ((u.history rs).flatMap Event.scans).length) := by
  induction rs generalizing u n with
  | nil => exact ⟨rfl, h⟩
  | cons r rs ih =>
    obtain ⟨hscans, hrun⟩ := h.run hp r
    obtain ⟨hrest, hall⟩ := ih hrun
    simp only [history, List.flatMap_cons, List.length_append, afterAll_cons]
    rw [← Nat.add_assoc]
    refine ⟨?_, hall⟩
    rw [← List.range'_append_1, List.map_append, ← hscans, ← hrest]

end Abreast

namespace Scanner

variable {s : Scanner}

/-- **A queue in front of the text.**  Whatever is asked for, the scanner hands out the
oldest token of its queue and changes nothing else, or what calls without the queue
yield next; what goes into the queue leaves it once, in the same order, unless it is
still there; and a fault leaves the current token as it is. -/
theorem pushback_fifo (hp : s.pending = []) (rs : List Request) :
    let last := s.afterAll rs
    let events := s.history rs
    let scans := events.flatMap Event.scans
    (∀ t q, last.pending = t :: q → next last = .ok t { last with token := t, pending := q })
      ∧ (last.pending = [] → answer (next last) = s.plain scans.length)
      ∧ scans = (List.range scans.length).map s.plain
      ∧ (events.flatMap Event.pushes).map Except.ok
        = events.flatMap Event.departures ++ last.pending.map Except.ok
      ∧ last.pending.length + (events.flatMap Event.replays).length
          + (events.flatMap Event.discards).length = (events.flatMap Event.pushes).length
      ∧ ∀ f s', next last = .error f s' → s'.token = last.token := by
  intro last events scans
  have hstart : Abreast s s 0 := rfl
  obtain ⟨hscans, hlast⟩ := hstart.afterAll hp rs
  have hqueue := s.history_conserves rs
  rw [hp, List.nil_append] at hqueue
  rw [Nat.zero_add] at hlast
  rw [← List.range_eq_range'] at hscans
  refine ⟨fun t q hq => next_of_pending hq, hlast.answer_next hp, hscans, hqueue, ?_,
    fun f s' => token_of_next_error⟩
  have hlength : (events.flatMap Event.pushes).length
      = (events.flatMap Event.departures).length + last.pending.length := by
    simpa using congrArg List.length hqueue
  rw [hlength, length_departures]
  omega

/-- Two tokens from elsewhere in front of a text, one of them its end. -/
theorem pushback_fifo_two :
    let s := stateAfter (load "a" .new)
    let last := s.afterAll [.pushBack (.endOfText ⟨7, 7⟩), .pushBack (.integer 1 ⟨9, 9⟩), .next]
    s.pending = [] ∧ last.token = .endOfText ⟨7, 7⟩
      ∧ next last
        = .ok (.integer 1 ⟨9, 9⟩) { last with token := .integer 1 ⟨9, 9⟩, pending := [] } := by
  intro s last
  have hp : s.pending = [] := rfl
  obtain ⟨hnext, -⟩ := pushback_fifo hp
    [.pushBack (.endOfText ⟨7, 7⟩), .pushBack (.integer 1 ⟨9, 9⟩), .next]
  exact ⟨hp, rfl, hnext _ [] rfl⟩

end Scanner

end Lexis
