import CodingExamples.PyHttpServer.Response

/-!
# One answer on a connection

The handler of the thread cannot know whether a part of the answer is on the
wire already.  When the connection breaks in the middle of an answer, and the
next call of `sendall` gets through, the error page follows a part of the file.

The main theorem says for which behaviours of the network this does not
happen.
-/

namespace CodingExamples.PyHttpServer.SingleAnswer

open CodingExamples.Library.HttpMessage
open CodingExamples.PyHttpServer.Target
open CodingExamples.PyHttpServer.Response

/-- What is on the wire when the `try` block has ended, in either way. -/
def sentByTry (server : Server) (request : Str)
    (deliveries : Nat → Delivery) : Str :=
  if (requestPath request).length = 0 then
    []
  else
    wireOf
      (sendFile server (target (requestPath request)) (enableGzip request)
        (enableChunked request) (Socket.opened deliveries))

/--
Nothing is sent behind a part of the answer from the `try` block; all of the
rest would come from the handler.
-/
def OneAnswer (server : Server) (request : Str)
    (deliveries : Nat → Delivery) : Prop :=
  sentByTry server request deliveries ≠ [] →
    sent server request deliveries = sentByTry server request deliveries

/-- The number of calls of `sendall` for the file that a request names. -/
def callsFor (server : Server) (request : Str) : Nat :=
  match server.fileOf request with
  | none => 0
  | some content =>
      if enableChunked request then
        2 + 3 * (((server.bodyOf request content).length + 1023) / 1024)
      else
        1

/--
If a call for the file is the first one to raise an exception, then it is the
very first call and has sent nothing, or the call after it sends nothing.
-/
def CutOff (server : Server) (request : Str)
    (deliveries : Nat → Delivery) : Prop :=
  ∀ k < callsFor server request, ∀ count,
    (∀ earlier < k, deliveries earlier = .whole) →
      deliveries k = .broken count →
        (k = 0 ∧ count = 0) ∨ deliveries (k + 1) = .broken 0

/-! ## The calls -/

theorem length_flatMap_chunkCalls (chunks : List Str) :
    (chunks.flatMap chunkCalls).length = 3 * chunks.length := by
  induction chunks with
  | nil => rfl
  | cons chunk chunks ih =>
      rw [List.flatMap_cons, List.length_append, ih, List.length_cons]
      show 3 + _ = _
      omega

theorem length_answerCalls
    {server : Server} {request content : Str} {chunks : List Str}
    (found : server.fileOf request = some content)
    (cut : IsCut (server.bodyOf request content) chunks) :
    (server.answerCalls request content chunks).length =
      callsFor server request := by
  simp only [callsFor, found, Server.answerCalls]
  split
  · rw [List.length_cons, List.length_append, length_flatMap_chunkCalls,
      cut.count, List.length_singleton]
    omega
  · rfl

/-- The first call sends something. -/
theorem exists_first_call
    (server : Server) (request content : Str) (chunks : List Str) :
    ∃ first rest,
      server.answerCalls request content chunks = first :: rest ∧
        first ≠ [] := by
  have header : headerOf request content ≠ [] :=
    httpHeader_ne_nil _ _ _ _ _
  rw [Server.answerCalls]
  split
  · exact ⟨_, _, rfl, header⟩
  · exact ⟨_, _, rfl, List.append_ne_nil_of_left_ne_nil header _⟩

/-- Up to a call that raises, nothing is sent only if it is the very first. -/
theorem sent_part_eq_nil_iff
    {first data : Str} {rest : List Str} (nonempty : first ≠ [])
    {k count : Nat} (call : (first :: rest)[k]? = some data) :
    ((first :: rest).take k).flatten ++ data.take count = [] ↔
      k = 0 ∧ count = 0 := by
  cases k with
  | zero =>
      have same : first = data := by
        simpa using call
      simp [same ▸ nonempty]
  | succ k => simp [nonempty]

/-! ## The handler -/

/-- What the handler puts on the wire. -/
theorem wireOf_sendError_eq_iff
    (server : Server) (path : Str) (gzip : Bool) (socket : Socket) :
    wireOf (sendError server path gzip socket) = socket.wire ↔
      socket.deliveries socket.calls = .broken 0 := by
  have page (length : Nat) (body : Str) :
      httpHeader (ascii "404 Not Found") (ascii "text/html") length gzip
          false ++ body ≠ [] :=
    List.append_ne_nil_of_left_ne_nil (httpHeader_ne_nil _ _ _ _ _) _
  rw [sendError]
  cases here : socket.deliveries socket.calls with
  | whole =>
      rw [sendall_of_whole here]
      simp [wireOf, page]
  | broken count =>
      rw [sendall_of_broken here]
      simp [wireOf, page]

/-! ## The connection -/

/-- Of the calls of a run, only one is the first to raise. -/
theorem cutOff_iff
    {server : Server} {request : Str} {deliveries : Nat → Delivery}
    {k count : Nat} (inside : k < callsFor server request)
    (before : ∀ earlier < k, deliveries earlier = .whole)
    (here : deliveries k = .broken count) :
    CutOff server request deliveries ↔
      (k = 0 ∧ count = 0) ∨ deliveries (k + 1) = .broken 0 := by
  constructor
  · intro cutOff
    exact cutOff k inside count before here
  · intro ends other _ otherCount otherBefore otherHere
    have same : other = k := by
      rcases Nat.lt_trichotomy other k with earlier | equal | later
      · rw [before other earlier] at otherHere
        cases otherHere
      · exact equal
      · rw [otherBefore k later] at here
        cases here
    subst same
    rw [here] at otherHere
    cases otherHere
    exact ends

theorem oneAnswer_of_missing
    {server : Server} {request : Str}
    (missing : server.fileOf request = none)
    (deliveries : Nat → Delivery) :
    OneAnswer server request deliveries := by
  intro something
  exfalso
  apply something
  rw [sentByTry]
  split
  · rfl
  · case isFalse requested =>
      rw [sendFile_of_none requested missing]
      rfl

/-- The handler does not run behind an answer that was sent in whole. -/
theorem oneAnswer_of_ok
    {server : Server} {request : Str} {deliveries : Nat → Delivery}
    {socket : Socket} (requested : (requestPath request).length ≠ 0)
    (ended :
      sendFile server (target (requestPath request)) (enableGzip request)
          (enableChunked request) (Socket.opened deliveries) =
        .ok () socket) :
    OneAnswer server request deliveries := by
  intro _
  rw [sent, run_of_requested requested, sentByTry, if_neg requested, ended]

/-- The handler runs behind a part of an answer, unless its call fails. -/
theorem oneAnswer_iff_of_error
    {server : Server} {request part : Str} {deliveries : Nat → Delivery}
    {calls : Nat} (requested : (requestPath request).length ≠ 0)
    (raised :
      sendFile server (target (requestPath request)) (enableGzip request)
          (enableChunked request) (Socket.opened deliveries) =
        .error () { deliveries, calls, wire := part }) :
    OneAnswer server request deliveries ↔
      part = [] ∨ deliveries calls = .broken 0 := by
  have handler :=
    wireOf_sendError_eq_iff server (target (requestPath request))
      (enableGzip request) { deliveries, calls, wire := part }
  rw [OneAnswer, sent, run_of_requested requested, sentByTry,
    if_neg requested, raised, or_iff_not_imp_left, ← handler]
  rfl

/--
For every request, every content of the files and every behaviour of the
network, a connection carries parts of one answer only, exactly if nothing has
been sent when a call for the file raises, or nothing is sent by the handler.
-/
theorem oneAnswer_iff
    (server : Server) (request : Str) (deliveries : Nat → Delivery) :
    OneAnswer server request deliveries ↔
      CutOff server request deliveries := by
  cases found : server.fileOf request with
  | none =>
      constructor
      · intro _ k inside
        rw [callsFor, found] at inside
        exact absurd inside (Nat.not_lt_zero k)
      · intro _
        exact oneAnswer_of_missing found deliveries
  | some content =>
      have requested := requested_of_fileOf found
      rcases exists_sendFile_eq found with ⟨chunks, cut, calls⟩
      have length := length_answerCalls found cut
      rcases exists_first_call server request content chunks with
        ⟨first, rest, split, nonempty⟩
      rw [split] at calls length
      have outcome := sent_sendAll (first :: rest) (Socket.opened deliveries)
      rw [← calls] at outcome
      cases ended :
          sendFile server (target (requestPath request)) (enableGzip request)
            (enableChunked request) (Socket.opened deliveries) with
      | ok _ socket =>
          rw [ended] at outcome
          cases outcome with
          | complete all =>
              constructor
              · intro _ k inside count _ here
                rw [← length] at inside
                have passed := all k inside
                change deliveries (0 + k) = .whole at passed
                rw [Nat.zero_add, here] at passed
                cases passed
              · intro _
                exact oneAnswer_of_ok requested ended
      | error _ socket =>
          rw [ended] at outcome
          cases outcome with
          | broken k count data before here call =>
              have inside : k < callsFor server request := by
                rw [← length]
                exact (List.getElem?_eq_some_iff.mp call).1
              simp only [Socket.opened, Nat.zero_add, List.nil_append]
                at before here ended
              rw [cutOff_iff inside before here,
                ← sent_part_eq_nil_iff nonempty call]
              exact oneAnswer_iff_of_error requested ended

/-- A folder whose files all consist of one byte. -/
def oneByteFiles : Server where
  webFolder := []
  files := fun _ => some (ascii "x")
  gzipCompress := id

/-- The first call sends ten bytes and raises; the others get through. -/
def interruptedOnce (call : Nat) : Delivery :=
  if call = 0 then .broken 10 else .whole

/-- The error page is sent behind ten bytes of the answer. -/
theorem exists_second_answer :
    ¬ ∀ (server : Server) (request : Str) (deliveries : Nat → Delivery),
        OneAnswer server request deliveries := by
  intro always
  have something :
      sentByTry oneByteFiles (ascii "GET / HTTP/1.0\r\n\r\n")
          interruptedOnce ≠ [] := by
    decide
  have nothingElse := always _ _ _ something
  revert nothingElse
  decide

end CodingExamples.PyHttpServer.SingleAnswer
