import CodingExamples.PyHttpServer.Response

/-!
# Framing of the answers

On a connection that takes every byte, a client has to find out where an
answer ends.  The chunked answers are messages of the chunked coding.  The
other answers announce a length, which is the length of the file, even where
the file is sent compressed.
-/

namespace CodingExamples.PyHttpServer.Framing

open CodingExamples.Library.HttpMessage
open CodingExamples.PyHttpServer.Target
open CodingExamples.PyHttpServer.Response

/-- Every call of `sendall` sends all of its bytes. -/
def undisturbed : Nat → Delivery := fun _ => .whole

/-! ## What is sent -/

theorem wireOf_sendAll (sends : List Str) :
    sendAll sends (Socket.opened undisturbed) =
      .ok ()
        { deliveries := undisturbed
          calls := sends.length
          wire := sends.flatten } := by
  have outcome := sent_sendAll sends (Socket.opened undisturbed)
  generalize sendAll sends (Socket.opened undisturbed) = result at outcome ⊢
  cases outcome with
  | complete all => simp [Socket.opened]
  | broken k count data before here call => cases here

/-- A file is sent with all of its calls. -/
theorem exists_sent_eq
    {server : Server} {request content : Str}
    (found : server.fileOf request = some content) :
    ∃ chunks,
      IsCut (server.bodyOf request content) chunks ∧
        sent server request undisturbed =
          (server.answerCalls request content chunks).flatten := by
  have requested : (requestPath request).length ≠ 0 :=
    requested_of_fileOf found
  rcases exists_sendFile_eq found with ⟨chunks, cut, calls⟩
  refine ⟨chunks, cut, ?_⟩
  rw [sent, run_of_requested requested, calls, wireOf_sendAll]
  rfl

/-- The error page is sent when there is no file. -/
theorem sent_of_missing
    {server : Server} {request : Str}
    (requested : (requestPath request).length ≠ 0)
    (missing : server.fileOf request = none) :
    sent server request undisturbed =
      httpHeader (ascii "404 Not Found") (ascii "text/html")
          (server.errorPage (target (requestPath request))
            (enableGzip request)).length
          (enableGzip request) false ++
        server.errorPage (target (requestPath request))
          (enableGzip request) := by
  rw [sent, run_of_requested requested, sendFile_of_none requested missing]
  show wireOf (sendError _ _ _ (Socket.opened undisturbed)) = _
  rw [sendError, sendall_of_whole rfl]
  rfl

/-! ## Chunked answers -/

/-- The calls for a chunk that is not empty and for the last one. -/
theorem chunked_calls
    {chunks : List Str} (nonempty : ∀ chunk ∈ chunks, chunk ≠ []) :
    Chunked
      (chunks.flatMap chunkCalls ++
        [numeral 16 0 ++ ascii "\r\n\r\n"]).flatten
      chunks.flatten := by
  induction chunks with
  | nil => exact Chunked.last
  | cons data chunks ih =>
      have later :=
        ih fun other member =>
          nonempty other (List.mem_cons_of_mem data member)
      have written :
          (chunkCalls data).flatten = chunk data := by
        have ends : ascii "\r\n" = crlf := rfl
        simp [chunkCalls, chunk, ends]
      rw [List.flatMap_cons, List.append_assoc, List.flatten_append, written,
        List.flatten_cons]
      exact Chunked.chunk data (nonempty data List.mem_cons_self) later

/--
For every request that is answered in the chunked coding and every content of
its file, what follows the header is a chunked message of the body, and it is
decoded to the body with nothing left over.
-/
theorem sent_chunked
    {server : Server} {request content : Str}
    (found : server.fileOf request = some content)
    (chunked : enableChunked request = true) :
    ∃ coded,
      sent server request undisturbed = headerOf request content ++ coded ∧
        Chunked coded (server.bodyOf request content) ∧
        decodeChunked coded = some (server.bodyOf request content, []) := by
  rcases exists_sent_eq found with ⟨chunks, cut, calls⟩
  have coding := chunked_calls cut.nonempty
  rw [cut.content] at coding
  have decoded := decodeChunked_of_chunked coding []
  rw [List.append_nil] at decoded
  refine ⟨_, ?_, coding, decoded⟩
  rw [calls, Server.answerCalls, if_pos chunked, List.flatten_cons]

/-- A folder with one content for every name. -/
def sameFiles (content : Str) (gzipCompress : Str → Str) : Server where
  webFolder := []
  files := fun _ => some content
  gzipCompress

/-- A file of 1024 bytes is sent as one chunk and the last one. -/
theorem sent_chunked_full :
    ∃ coded,
      sent (sameFiles (List.replicate 1024 10) id)
          (ascii "GET / HTTP/1.1\r\n\r\n") undisturbed =
        headerOf (ascii "GET / HTTP/1.1\r\n\r\n")
            (List.replicate 1024 10) ++ coded ∧
        Chunked coded (List.replicate 1024 10) ∧
        decodeChunked coded = some (List.replicate 1024 10, []) := by
  have found :
      (sameFiles (List.replicate 1024 10) id).fileOf
          (ascii "GET / HTTP/1.1\r\n\r\n") =
        some (List.replicate 1024 10) := rfl
  exact sent_chunked found (by decide)

/-! ## Answers with a length -/

/-- The line that says how the body ends. -/
def framingLine (length : Nat) (chunked : Bool) : Str :=
  if chunked then
    ascii "Transfer-Encoding: chunked"
  else
    contentLengthField ++ numeral 10 length

/-- The lines in front of it. -/
def typeLines (status type : Str) (gzip : Bool) : List Str :=
  [ascii "HTTP/1.1 " ++ status, ascii "Content-Type: " ++ type,
    ascii "Connection: close"] ++
    if gzip then [ascii "Content-Encoding: gzip"] else []

/-- The lines of a header. -/
theorem httpHeader_eq
    (status type : Str) (length : Nat) (gzip chunked : Bool) :
    httpHeader status type length gzip chunked =
      renderLines
          (typeLines status type gzip ++ [framingLine length chunked]) ++
        crlf := by
  have typeField :
      ascii "\r\nContent-Type: " = crlf ++ ascii "Content-Type: " := rfl
  have connection :
      ascii "\r\nConnection: close\r\n" =
        crlf ++ (ascii "Connection: close" ++ crlf) := rfl
  have encoding :
      ascii "Content-Encoding: gzip\r\n" =
        ascii "Content-Encoding: gzip" ++ crlf := rfl
  have transfer :
      ascii "Transfer-Encoding: chunked\r\n" =
        ascii "Transfer-Encoding: chunked" ++ crlf := rfl
  have ends : ascii "\r\n" = crlf := rfl
  cases gzip <;> cases chunked <;>
    simp [httpHeader, typeLines, framingLine, renderLines, typeField,
      connection, encoding, transfer, ends, contentLengthField]

/-- What holds of the four lines holds of the lines of every header. -/
theorem forall_mem_typeLines
    {status type : Str} {property : Str → Prop}
    (statusLine : property (ascii "HTTP/1.1 " ++ status))
    (typeField : property (ascii "Content-Type: " ++ type))
    (connection : property (ascii "Connection: close"))
    (encoding : property (ascii "Content-Encoding: gzip")) (gzip : Bool) :
    ∀ line ∈ typeLines status type gzip, property line := by
  intro line member
  rcases List.mem_append.mp member with fixed | optional
  · rcases List.mem_cons.mp fixed with rfl | fixed
    · exact statusLine
    rcases List.mem_cons.mp fixed with rfl | fixed
    · exact typeField
    rw [List.mem_singleton.mp fixed]
    exact connection
  · cases gzip with
    | false => cases optional
    | true =>
        rw [List.mem_singleton.mp optional]
        exact encoding

/-- No line announces a length in front of the last one. -/
theorem not_contentLength_of_mem (status type : Str) (gzip : Bool) :
    ∀ line ∈ typeLines status type gzip,
      contentLengthField.isPrefixOf line = false := by
  apply forall_mem_typeLines
  · rfl
  · rfl
  · rfl
  · rfl

theorem isLine_of_mem_typeLines
    {status type : Str} (plainStatus : 13 ∉ status) (plainType : 13 ∉ type)
    (gzip : Bool) : ∀ line ∈ typeLines status type gzip, IsLine line := by
  have behind {text rest : Str} (nonempty : text ≠ []) (plain : 13 ∉ text)
      (plainRest : 13 ∉ rest) : IsLine (text ++ rest) :=
    ⟨List.append_ne_nil_of_left_ne_nil nonempty rest,
      List.not_mem_append plain plainRest⟩
  apply forall_mem_typeLines
  · exact behind (by decide) (by decide) plainStatus
  · exact behind (by decide) (by decide) plainType
  · exact ⟨by decide, by decide⟩
  · exact ⟨by decide, by decide⟩

/-- An answer is framed if the announced length is that of its body. -/
theorem lengthMatches_httpHeader_iff
    {status type : Str} (plainStatus : 13 ∉ status) (plainType : 13 ∉ type)
    (length : Nat) (gzip : Bool) (body : Str) :
    LengthMatches (httpHeader status type length gzip false ++ body) ↔
      length = body.length := by
  have each :
      ∀ line ∈ typeLines status type gzip ++ [framingLine length false],
        IsLine line := by
    intro line member
    rcases List.mem_append.mp member with earlier | last
    · exact isLine_of_mem_typeLines plainStatus plainType gzip line earlier
    · have digits : 13 ∉ numeral 10 length :=
        (isLine_numeral (by decide) (by decide) length).plain
      rw [List.mem_singleton.mp last]
      exact
        ⟨List.append_ne_nil_of_left_ne_nil (by decide) _,
          List.not_mem_append (by decide) digits⟩
  have announced :
      contentLength
          (typeLines status type gzip ++ [framingLine length false]) =
        some length :=
    contentLength_append (not_contentLength_of_mem status type gzip) length []
  rw [httpHeader_eq, List.append_assoc]
  exact lengthMatches_append_iff each announced body

/-- No type of a path breaks its line. -/
theorem plain_pathToType (path : Str) : 13 ∉ pathToType path := by
  rw [pathToType]
  split_ifs <;> decide

/-- The server answers without the chunked coding. -/
structure PlainAnswer (server : Server) (request : Str) : Prop where
  requested : (requestPath request).length ≠ 0
  plain : server.fileOf request = none ∨ enableChunked request = false

/-- A file is announced with the length that it has uncompressed. -/
theorem lengthMatches_sent_of_found
    {server : Server} {request content : Str}
    (found : server.fileOf request = some content)
    (plain : enableChunked request = false) :
    LengthMatches (sent server request undisturbed) ↔
      content.length = (server.bodyOf request content).length := by
  have plainStatus : 13 ∉ ascii "200 OK" := by
    decide
  rcases exists_sent_eq found with ⟨chunks, _, calls⟩
  rw [calls, Server.answerCalls, plain, headerOf, plain]
  simp only [Bool.false_eq_true, if_false, List.flatten_singleton]
  exact lengthMatches_httpHeader_iff plainStatus (plain_pathToType _) _ _ _

/-- The error page is announced with the length that is sent. -/
theorem lengthMatches_sent_of_missing
    {server : Server} {request : Str}
    (requested : (requestPath request).length ≠ 0)
    (missing : server.fileOf request = none) :
    LengthMatches (sent server request undisturbed) := by
  have plainStatus : 13 ∉ ascii "404 Not Found" := by
    decide
  have plainType : 13 ∉ ascii "text/html" := by
    decide
  rw [sent_of_missing requested missing,
    lengthMatches_httpHeader_iff plainStatus plainType]

/--
For every request that is answered without the chunked coding, the announced
length is that of the body that follows, exactly if the file is not sent
compressed, or compressing it keeps its length.
-/
theorem lengthMatches_sent_iff
    {server : Server} {request : Str} (answer : PlainAnswer server request) :
    LengthMatches (sent server request undisturbed) ↔
      ∀ content, server.fileOf request = some content →
        enableGzip request = true →
          (server.gzipCompress content).length = content.length := by
  cases found : server.fileOf request with
  | none =>
      have framed := lengthMatches_sent_of_missing answer.requested found
      simp [framed]
  | some content =>
      have plain : enableChunked request = false := by
        rcases answer.plain with missing | plain
        · rw [found] at missing
          cases missing
        · exact plain
      rw [lengthMatches_sent_of_found found plain, Server.bodyOf]
      cases enableGzip request with
      | false => simp
      | true =>
          constructor
          · intro same other equal _
            cases equal
            exact same.symm
          · intro same
            exact (same content rfl rfl).symm

/-- A file that is sent as it is, to a client that takes no compression. -/
theorem lengthMatches_sent_iff_identity :
    LengthMatches
        (sent (sameFiles (ascii "x") (· ++ ascii "y"))
          (ascii "GET / HTTP/1.0\r\n\r\n") undisturbed) ↔
      ∀ content,
        (sameFiles (ascii "x") (· ++ ascii "y")).fileOf
            (ascii "GET / HTTP/1.0\r\n\r\n") = some content →
          enableGzip (ascii "GET / HTTP/1.0\r\n\r\n") = true →
            (content ++ ascii "y").length = content.length :=
  lengthMatches_sent_iff ⟨by decide, .inr (by decide)⟩

/-- The compressed form of an empty file, with a time stamp of zero. -/
def gzipOfEmpty : Str :=
  [0x1f, 0x8b, 8, 0, 0, 0, 0, 0, 2, 0xff, 3, 0, 0, 0, 0, 0, 0, 0, 0, 0]

/-- A compressed empty file is announced with the length zero. -/
theorem exists_length_not_matching :
    ¬ ∀ (server : Server) (request : Str), PlainAnswer server request →
        LengthMatches (sent server request undisturbed) := by
  intro always
  have plain :
      enableChunked
          (ascii "GET / HTTP/1.0\r\nAccept-Encoding: gzip\r\n\r\n") =
        false := by
    decide
  have framed :=
    always (sameFiles [] fun _ => gzipOfEmpty) _ ⟨by decide, .inr plain⟩
  rw [lengthMatches_sent_of_found rfl plain] at framed
  revert framed
  decide

end CodingExamples.PyHttpServer.Framing
