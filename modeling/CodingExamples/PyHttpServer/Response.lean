import CodingExamples.Library.HttpMessage
import CodingExamples.PyHttpServer.Target
import Mathlib.Order.Basic

/-!
# Answering a request

A thread answers a request with the file that it names, chunked or with its
length, or with an error page.  One handler catches every exception, also
those of `sendall`, and sends the error page.

A call of `sendall` sends all of its bytes, or it raises an exception when it
has sent some of them; which of the two is up to the network.  A connection
is the state of the thread and keeps what is on the wire.

The thread does the calls of a list that is known beforehand, until one of
them raises.  This is what the sections behind the thread are about.
-/

namespace CodingExamples.PyHttpServer.Response

open CodingExamples.Library.HttpMessage
open CodingExamples.PyHttpServer.Target (Str requestPath splitCrlf target)

/-- What the threads find around them. -/
structure Server where
  webFolder : Str
  /-- The content of a file, unless opening or reading it raises. -/
  files : Str → Option Str
  gzipCompress : Str → Str

/-! ## Parts of an answer -/

/-- `path_to_type(path)`. -/
def pathToType (path : Str) : Str :=
  if (ascii ".css").isSuffixOf path then
    ascii "text/css"
  else if (ascii ".jpg").isSuffixOf path then
    ascii "image/jpeg"
  else if (ascii ".pdf").isSuffixOf path then
    ascii "application/pdf"
  else if (ascii ".pptx").isSuffixOf path then
    ascii
      "application/vnd.openxmlformats-officedocument.presentationml.presentation"
  else
    ascii "text/html"

/-- `http_header(status, type, length, enable_gzip, enable_chunked)`. -/
def httpHeader (status type : Str) (length : Nat)
    (enableGzip enableChunked : Bool) : Str :=
  let header :=
    ascii "HTTP/1.1 " ++ status ++ ascii "\r\nContent-Type: " ++ type ++
      ascii "\r\nConnection: close\r\n"
  let header :=
    if enableGzip then
      header ++ ascii "Content-Encoding: gzip\r\n"
    else
      header
  let header :=
    if enableChunked then
      header ++ ascii "Transfer-Encoding: chunked\r\n"
    else
      header ++ (ascii "Content-Length: " ++ numeral 10 length ++ ascii "\r\n")
  header ++ ascii "\r\n"

/-- `error_message(path)`. -/
def errorMessage (path : Str) : Str :=
  ascii "<html>\n\t<head><title>404 Not Found</title></head>\n" ++
    ascii "\t<body><h1>Not Found</h1>\n\t<p>The requested URL " ++ path ++
    ascii " was not found on this server.</p>\n\t</body></html>"

/-- `text in line`. -/
def contains (text line : Str) : Bool :=
  line.tails.any text.isPrefixOf

/-- `enable_chunked` of a request. -/
def enableChunked (request : Str) : Bool :=
  contains (ascii "HTTP/1.1") ((splitCrlf request).headD [])

/-- `enable_gzip` of a request. -/
def enableGzip (request : Str) : Bool :=
  (splitCrlf request).any fun line =>
    (ascii "Accept-Encoding: ").isPrefixOf line &&
      contains (ascii "gzip") line

/-- The result of `open` and `read`; a NUL in the name makes `open` raise. -/
def Server.readFile (server : Server) (name : Str) : Option Str :=
  if name.contains 0 then none else server.files name

/-- The error page, which is compressed like a file. -/
def Server.errorPage (server : Server) (path : Str) (gzip : Bool) : Str :=
  if gzip then server.gzipCompress (errorMessage path) else errorMessage path

/-! ## Connections -/

/-- How a call of `sendall` ends. -/
inductive Delivery where
  | whole
  /-- An exception is raised when that many bytes have been sent. -/
  | broken (count : Nat)
deriving DecidableEq, Repr

/-- A connection, as the thread and the network see it. -/
structure Socket where
  /-- How each of the calls of `sendall` ends, in their order. -/
  deliveries : Nat → Delivery
  calls : Nat
  wire : Str

/-- A new connection. -/
def Socket.opened (deliveries : Nat → Delivery) : Socket where
  deliveries
  calls := 0
  wire := []

/-- A part of the thread, which may raise an exception. -/
abbrev Thread := EStateM Unit Socket

/-- `self.socket.sendall(data)`. -/
def sendall (data : Str) : Thread Unit := fun socket =>
  let socket' := { socket with calls := socket.calls + 1 }
  match socket.deliveries socket.calls with
  | .whole => .ok () { socket' with wire := socket.wire ++ data }
  | .broken count =>
      .error () { socket' with wire := socket.wire ++ data.take count }

/-! ## The thread -/

/-- `chunk_size`. -/
def chunkSize : Nat := 1024

/-- The `while` loop over the chunks of the body, from index `i` on. -/
def sendChunks (body : Str) (i : Nat) : Thread Unit := do
  if i < body.length then
    let chunk :=
      if i + chunkSize ≤ body.length then
        (body.drop i).take chunkSize
      else
        body.drop i
    sendall (numeral 16 chunk.length ++ ascii "\r\n")
    sendall chunk
    sendall (ascii "\r\n")
    sendChunks body (i + chunkSize)
  else
    pure ()
termination_by body.length - i
decreasing_by
  rw [chunkSize]
  omega

/-- The `try` block. -/
def sendFile (server : Server) (path : Str) (gzip chunked : Bool) :
    Thread Unit := do
  let type := pathToType path
  match server.readFile (server.webFolder ++ path) with
  | none => throw ()
  | some body =>
      let header :=
        httpHeader (ascii "200 OK") type body.length gzip chunked
      let body := if gzip then server.gzipCompress body else body
      if chunked then
        sendall header
        sendChunks body 0
        sendall (numeral 16 0 ++ ascii "\r\n\r\n")
      else
        sendall (header ++ body)

/-- The handler. -/
def sendError (server : Server) (path : Str) (gzip : Bool) : Thread Unit :=
  let body := server.errorPage path gzip
  let header :=
    httpHeader (ascii "404 Not Found") (ascii "text/html") body.length gzip
      false
  sendall (header ++ body)

/-- `run` behind the loop that reads the request. -/
def run (server : Server) (request : Str) : Thread Unit :=
  let path := requestPath request
  if path.length = 0 then
    pure ()
  else
    let path := target path
    tryCatch
      (sendFile server path (enableGzip request) (enableChunked request))
      fun _ => sendError server path (enableGzip request)

/-! ## Lists of calls -/

/-- Call `sendall` with each of the strings. -/
def sendAll : List Str → Thread Unit
  | [] => pure ()
  | data :: rest => do
      sendall data
      sendAll rest

theorem sendAll_append (first second : List Str) :
    sendAll (first ++ second) = (do sendAll first; sendAll second) := by
  induction first with
  | nil => simp [sendAll]
  | cons data first ih => simp [sendAll, ih]

/-- The three calls for a chunk. -/
def chunkCalls (chunk : Str) : List Str :=
  [numeral 16 chunk.length ++ ascii "\r\n", chunk, ascii "\r\n"]

/-- The chunk at an index. -/
def chunkAt (body : Str) (i : Nat) : Str :=
  (body.drop i).take chunkSize

/-- Both branches of the loop body cut the same chunk. -/
theorem cut_eq_chunkAt (body : Str) (i : Nat) :
    (if i + chunkSize ≤ body.length then
        (body.drop i).take chunkSize
      else
        body.drop i) = chunkAt body i := by
  split
  · rfl
  · case isFalse short =>
      have all : (body.drop i).length ≤ chunkSize := by
        rw [List.length_drop]
        omega
      rw [chunkAt, List.take_of_length_le all]

theorem sendChunks_of_lt {body : Str} {i : Nat} (inside : i < body.length) :
    sendChunks body i =
      (do
        sendAll (chunkCalls (chunkAt body i))
        sendChunks body (i + chunkSize)) := by
  rw [sendChunks, if_pos inside]
  simp only [cut_eq_chunkAt, chunkCalls, sendAll, bind_assoc, pure_bind]

theorem sendChunks_of_le {body : Str} {i : Nat} (behind : body.length ≤ i) :
    sendChunks body i = pure () := by
  rw [sendChunks, if_neg (Nat.not_lt_of_le behind)]

/-- The loop cuts the body into chunks that are not empty. -/
theorem exists_chunks (body : Str) (i : Nat) :
    ∃ chunks : List Str,
      (∀ chunk ∈ chunks, chunk ≠ []) ∧
        chunks.flatten = body.drop i ∧
        chunks.length = (body.length - i + 1023) / 1024 ∧
        sendChunks body i = sendAll (chunks.flatMap chunkCalls) := by
  induction left : body.length - i using Nat.strongRecOn generalizing i with
  | ind remaining ih =>
      by_cases inside : i < body.length
      · have smaller : body.length - (i + chunkSize) < remaining := by
          rw [chunkSize]
          omega
        rcases ih _ smaller (i + chunkSize) rfl with
          ⟨chunks, nonempty, content, count, calls⟩
        refine ⟨chunkAt body i :: chunks, ?_, ?_, ?_, ?_⟩
        · intro chunk member
          rcases List.mem_cons.mp member with rfl | later
          · intro empty
            have length := congrArg List.length empty
            rw [chunkAt, List.length_take, List.length_drop, chunkSize,
              List.length_nil] at length
            omega
          · exact nonempty chunk later
        · rw [List.flatten_cons, content, chunkAt, ← List.drop_drop,
            List.take_append_drop]
        · rw [chunkSize] at count
          rw [List.length_cons, count]
          omega
        · rw [sendChunks_of_lt inside, calls, List.flatMap_cons,
            sendAll_append]
      · have behind : body.length ≤ i :=
          Nat.le_of_not_lt inside
        refine ⟨[], by simp, ?_, ?_, sendChunks_of_le behind⟩
        · rw [List.drop_of_length_le behind, List.flatten_nil]
        · rw [List.length_nil]
          omega

/-! ## What a list of calls leaves on the wire -/

/-- How a list of calls ends. -/
inductive Sent (sends : List Str) (socket : Socket) :
    EStateM.Result Unit Socket Unit → Prop where
  | complete
      (all : ∀ k < sends.length,
        socket.deliveries (socket.calls + k) = .whole) :
      Sent sends socket
        (.ok ()
          { socket with
            calls := socket.calls + sends.length
            wire := socket.wire ++ sends.flatten })
  | broken (k count : Nat) (data : Str)
      (before : ∀ earlier < k,
        socket.deliveries (socket.calls + earlier) = .whole)
      (here : socket.deliveries (socket.calls + k) = .broken count)
      (call : sends[k]? = some data) :
      Sent sends socket
        (.error ()
          { socket with
            calls := socket.calls + k + 1
            wire :=
              socket.wire ++ ((sends.take k).flatten ++ data.take count) })

theorem sendall_of_whole
    {socket : Socket} (here : socket.deliveries socket.calls = .whole)
    (data : Str) :
    sendall data socket =
      .ok ()
        { socket with
          calls := socket.calls + 1
          wire := socket.wire ++ data } := by
  rw [sendall, here]

theorem sendall_of_broken
    {socket : Socket} {count : Nat}
    (here : socket.deliveries socket.calls = .broken count) (data : Str) :
    sendall data socket =
      .error ()
        { socket with
          calls := socket.calls + 1
          wire := socket.wire ++ data.take count } := by
  rw [sendall, here]

theorem sent_sendAll (sends : List Str) (socket : Socket) :
    Sent sends socket (sendAll sends socket) := by
  induction sends generalizing socket with
  | nil =>
      have complete : Sent [] socket _ := Sent.complete (by simp)
      simp only [List.length_nil, List.flatten_nil, List.append_nil]
        at complete
      exact complete
  | cons data rest ih =>
      show Sent _ socket (EStateM.bind (sendall data) _ socket)
      cases here : socket.deliveries socket.calls with
      | whole =>
          rw [EStateM.bind, sendall_of_whole here]
          have tail :=
            ih
              { socket with
                calls := socket.calls + 1
                wire := socket.wire ++ data }
          have place (k : Nat) :
              socket.calls + (k + 1) = socket.calls + 1 + k := by
            omega
          have shift {bound : Nat}
              (later : ∀ k < bound,
                socket.deliveries (socket.calls + 1 + k) = .whole) :
              ∀ k < bound + 1,
                socket.deliveries (socket.calls + k) = .whole := by
            intro k below
            cases k with
            | zero => exact here
            | succ k =>
                rw [place]
                exact later k (Nat.lt_of_succ_lt_succ below)
          show Sent _ socket (sendAll rest _)
          generalize sendAll rest _ = result at tail ⊢
          cases tail with
          | complete all =>
              have complete : Sent (data :: rest) socket _ :=
                Sent.complete (shift all)
              rw [List.length_cons, place] at complete
              simpa using complete
          | broken k count failed before there call =>
              rw [← place] at there
              have broken : Sent (data :: rest) socket _ :=
                Sent.broken (k + 1) count failed (shift before) there call
              rw [place] at broken
              simpa using broken
      | broken count =>
          rw [EStateM.bind, sendall_of_broken here]
          have broken : Sent (data :: rest) socket _ :=
            Sent.broken 0 count data (by simp) here rfl
          simpa using broken

/-! ## The calls for a file -/

/-- The content of the file that a request names. -/
def Server.fileOf (server : Server) (request : Str) : Option Str :=
  let path := requestPath request
  if path.length = 0 then
    none
  else
    server.readFile (server.webFolder ++ target path)

/-- A request for a file says its path. -/
theorem requested_of_fileOf
    {server : Server} {request content : Str}
    (found : server.fileOf request = some content) :
    (requestPath request).length ≠ 0 := by
  intro empty
  rw [Server.fileOf] at found
  simp only [if_pos empty] at found
  cases found

/-- The body that is sent for some content. -/
def Server.bodyOf (server : Server) (request content : Str) : Str :=
  if enableGzip request then server.gzipCompress content else content

/-- The header that is sent for some content. -/
def headerOf (request content : Str) : Str :=
  httpHeader (ascii "200 OK") (pathToType (target (requestPath request)))
    content.length (enableGzip request) (enableChunked request)

/-- The strings that `sendall` is called with, for a body cut into chunks. -/
def Server.answerCalls (server : Server) (request content : Str)
    (chunks : List Str) : List Str :=
  if enableChunked request then
    headerOf request content ::
      (chunks.flatMap chunkCalls ++ [numeral 16 0 ++ ascii "\r\n\r\n"])
  else
    [headerOf request content ++ server.bodyOf request content]

/-- The chunks of a body. -/
structure IsCut (body : Str) (chunks : List Str) : Prop where
  nonempty : ∀ chunk ∈ chunks, chunk ≠ []
  content : chunks.flatten = body
  count : chunks.length = (body.length + 1023) / 1024

/-- The `try` block does the calls of a list. -/
theorem exists_sendFile_eq
    {server : Server} {request content : Str}
    (found : server.fileOf request = some content) :
    ∃ chunks,
      IsCut (server.bodyOf request content) chunks ∧
        sendFile server (target (requestPath request)) (enableGzip request)
            (enableChunked request) =
          sendAll (server.answerCalls request content chunks) := by
  rw [Server.fileOf] at found
  split at found
  · cases found
  rcases exists_chunks (server.bodyOf request content) 0 with
    ⟨chunks, nonempty, whole, count, calls⟩
  refine ⟨chunks, ⟨nonempty, whole, count⟩, ?_⟩
  rw [sendFile, Server.answerCalls]
  simp only [found]
  cases chunked : enableChunked request with
  | false =>
      simp only [Bool.false_eq_true, if_false, sendAll, bind_pure_unit]
      rw [headerOf, chunked]
      rfl
  | true =>
      simp only [if_true, sendAll, sendAll_append, bind_pure_unit, ← calls]
      rw [headerOf, chunked]
      rfl

theorem sendFile_of_none
    {server : Server} {request : Str}
    (requested : (requestPath request).length ≠ 0)
    (missing : server.fileOf request = none) (gzip chunked : Bool) :
    sendFile server (target (requestPath request)) gzip chunked =
      throw () := by
  rw [Server.fileOf] at missing
  simp only [if_neg requested] at missing
  rw [sendFile]
  simp only [missing]

/-- Every header begins with the protocol. -/
theorem httpHeader_ne_nil
    (status type : Str) (length : Nat) (gzip chunked : Bool) :
    httpHeader status type length gzip chunked ≠ [] := by
  simp [httpHeader, ascii]

/-! ## The connection -/

/-- What a part of the thread leaves on the wire. -/
def wireOf : EStateM.Result Unit Socket Unit → Str
  | .ok _ socket => socket.wire
  | .error _ socket => socket.wire

/-- What is on the wire of a new connection when the thread has ended. -/
def sent (server : Server) (request : Str) (deliveries : Nat → Delivery) :
    Str :=
  wireOf (run server request (Socket.opened deliveries))

theorem run_of_requested
    {server : Server} {request : Str}
    (requested : (requestPath request).length ≠ 0) (socket : Socket) :
    run server request socket =
      match
        sendFile server (target (requestPath request)) (enableGzip request)
          (enableChunked request) socket with
      | .ok _ socket => .ok () socket
      | .error _ socket =>
          sendError server (target (requestPath request))
            (enableGzip request) socket := by
  simp only [run, if_neg requested]
  show EStateM.tryCatch _ _ socket = _
  rw [EStateM.tryCatch]
  cases sendFile server (target (requestPath request)) (enableGzip request)
      (enableChunked request) socket <;> rfl

end CodingExamples.PyHttpServer.Response
