import FileServer.DocumentRoot
import FileServer.Proofs.Request.Hearing
import FileServer.Proofs.Response

/-!
# A sequential server

What a server has to send can be said without its loop, its workers and its buffers: a request that
is all there is read at once, its path is looked up in the site, and the response is rendered
(`Reference.reply`). The requests of one client are answered one after the other, up to the first
that does not ask to keep the connection (`Reference.transcript`).

A client that sends its requests one at a time goes on to the next only when it has received the
response to the last (`Reference.MaySend`). While a response is not complete, all that such a client
sends is part of the request that is being answered (`Reference.MaySend.within`).
-/

namespace FileServer

namespace Request

/-- Reading has to wait for the first byte. -/
theorem read_nil : (read []).1 = .incomplete := by decide +kernel

/-- A whole request and nothing more: reading comes to its end with the last byte and not before.
A body, if there is one, is part of it. -/
structure IsWhole (q : Bytes) : Prop where
  length_le : q.length ≤ inputCapacity
  complete : (read q).1 = .complete
  incomplete : ∀ n < q.length, (read (q.take n)).1 = .incomplete

/-- A first part of a request is either all of it, or incomplete. -/
theorem IsWhole.part {q u : Bytes} (hq : IsWhole q) (hu : u <+: q) :
    u = q ∨ (read u).1 = .incomplete := by
  rcases Nat.lt_or_ge u.length q.length with hlt | hge
  · right
    rw [List.prefix_iff_eq_take.mp hu]
    exact hq.incomplete _ hlt
  · exact .inl (hu.eq_of_length_le hge)

end Request

namespace Reference

open Request (read)

variable {site : Site} {root : String} {q bytes part : Bytes} {done due : List Bytes}

/-! ## One response

What a request is answered with, from its bytes and the site alone. -/

/-- What a request is answered with. -/
def answerTo (site : Site) (root : String) (q : Bytes) : Resolution :=
  (DocumentRoot.locate site root (read q).2.target []).1

/-- Whether a request asks to keep the connection. -/
def keeps (q : Bytes) : Bool := (read q).2.fields.keepAlive

/-- The response to a request: head, then body. -/
def reply (site : Site) (root : String) (q : Bytes) : Bytes :=
  Response.head (answerTo site root q) (keeps q) ++ (answerTo site root q).body

theorem reply_length_pos (site : Site) (root : String) (q : Bytes) :
    0 < (reply site root q).length := by
  have hend : Response.lineEnd.length = 2 := rfl
  simp only [reply, Response.head, List.length_append, hend]
  omega

/-! ## All responses to one client

The answers one after the other, up to the first that does not keep the connection. -/

/-- What a client is sent who sends these requests. -/
def transcript (site : Site) (root : String) : List Bytes → Bytes
  | [] => []
  | q :: rest => reply site root q ++ if keeps q then transcript site root rest else []

theorem transcript_singleton (site : Site) (root : String) (q : Bytes) :
    transcript site root [q] = reply site root q := by
  simp [transcript]

/-- As long as the connection is kept, the responses to more requests come behind. -/
theorem transcript_append (hkeep : ∀ p ∈ done, keeps p = true) (due : List Bytes) :
    transcript site root (done ++ due) = transcript site root done ++ transcript site root due := by
  induction done with
  | nil => rfl
  | cons q rest ih =>
    obtain ⟨hq, hrest⟩ := List.forall_mem_cons.mp hkeep
    simp only [List.cons_append, transcript, hq, if_true, ih hrest, List.append_assoc]

/-- The responses to the first requests are the first responses, so that what a client has
received at some time stays right whatever else it sends. -/
theorem transcript_first (site : Site) (root : String) (done due : List Bytes) :
    transcript site root done <+: transcript site root (done ++ due) := by
  induction done with
  | nil => exact List.nil_prefix
  | cons q rest ih =>
    simp only [List.cons_append, transcript]
    split
    · exact (List.prefix_append_right_inj _).mpr ih
    · exact List.prefix_rfl

theorem transcript_snoc (hkeep : ∀ p ∈ done, keeps p = true) (q : Bytes) :
    transcript site root (done ++ [q]) = transcript site root done ++ reply site root q := by
  rw [transcript_append hkeep, transcript_singleton]

/-- Nothing is answered after a request that does not ask to keep the connection. -/
theorem transcript_end (hkeep : ∀ p ∈ done, keeps p = true) (hq : keeps q = false)
    (rest : List Bytes) :
    transcript site root (done ++ q :: rest) = transcript site root done ++ reply site root q := by
  rw [transcript_append hkeep]
  simp [transcript, hq]

/-! ## One request at a time

What a client may send that waits for each answer before it asks again. -/

/-- A client that has these requests, has sent so much and received so much may go on to send:
that stays within one request, and the responses to those before it have been received. It may
send its request in as many pieces as it likes. -/
def MaySend (site : Site) (root : String) (requests : List Bytes) (sent bytes : Bytes)
    (received : Nat) : Prop :=
  ∃ done q rest, requests = done ++ q :: rest ∧ sent ++ bytes <+: done.flatten ++ q ∧
    (transcript site root done).length ≤ received

/-- As long as the next response has not been received, what the client sends belongs to the request
that it answers. -/
theorem MaySend.within {received : Nat}
    (h : MaySend site root (done ++ due) (done.flatten ++ part) bytes received)
    (hpart : part <+: due.headD [])
    (hreceived : ∀ q rest,
      due = q :: rest → received < (transcript site root (done ++ [q])).length) :
    part ++ bytes <+: due.headD [] := by
  obtain ⟨done', q, rest, hsplit, hsent, hanswered⟩ := h
  have hsame : ∀ {due' : List Bytes}, due' = q :: rest → done' = done →
      part ++ bytes <+: due'.headD [] := by
    rintro _ rfl rfl
    rw [List.append_assoc] at hsent
    exact (List.prefix_append_right_inj _).mp hsent
  rcases List.append_eq_append_iff.mp hsplit with ⟨more, rfl, hdue⟩ | ⟨more, rfl, hdue⟩
  · cases more with
    | nil => exact hsame hdue (List.append_nil _)
    | cons p more =>
      -- the client would have to have received the response that is not complete
      have hless := hreceived p _ hdue
      have hmore := (transcript_first site root (done ++ [p]) more).length_le
      rw [List.append_assoc, List.singleton_append] at hmore
      omega
  · cases more with
    | nil => exact hsame hdue.symm (List.append_nil _).symm
    | cons p more =>
      obtain ⟨rfl, rfl⟩ := List.cons.inj hdue
      have hlength := hsent.length_le
      simp only [List.flatten_append, List.flatten_cons, List.length_append] at hlength
      have hnone : bytes = [] := List.eq_nil_of_length_eq_zero (by omega)
      rw [hnone, List.append_nil]
      exact hpart

end Reference

/-! ## Sites of ordinary size

The file that a path leads to is one of the site, so its length is one that a head can announce. -/

/-- The sizes of files are numbers of 64 bits. On every real file system they are, and the length
that a response announces could not be computed otherwise. -/
def Site.Addressable (site : Site) : Prop :=
  ∀ place mode content, site.at? place = some (.file mode content) →
    content.length < Decimal.wordLimit

/-- For a site that is written down as a list of entries, the entries can be checked one by
one. -/
theorem Site.Addressable.of_entries {site : Site} (h : ∀ entry ∈ site.entries, ∀ mode content,
    entry.2 = .file mode content → content.length < Decimal.wordLimit) : site.Addressable := by
  intro place mode content hat
  obtain ⟨before, after, hentries, -⟩ := List.lookup_eq_some_iff.mp hat
  refine h (place, .file mode content) ?_ mode content rfl
  rw [hentries]
  exact List.mem_append_right _ List.mem_cons_self

/-- What a path leads to stands at the place that it leads to. -/
theorem Site.at?_of_find {site : Site} {path : String} {place : List String} {entry : Entry}
    (h : site.find path = .ok (place, entry)) : site.at? place = some entry := by
  simp only [find, bind, Except.bind, pure, Except.pure, throw, throwThe, MonadExceptOf.throw] at h
  split at h
  · cases h
  · split at h
    · cases h
    · split at h
      · cases h
      · split at h
        · cases h
        · rename_i found _
          split at h
          · rename_i hentry
            obtain ⟨rfl, rfl⟩ := Prod.mk.inj (Except.ok.inj h)
            exact hentry
          · cases h

namespace DocumentRoot

variable {site : Site} {root url : String} {content : Bytes}

/-- What is opened is the content of a file, or nothing. -/
theorem openEntry_eq_some {entry : Entry} (h : openEntry entry = some content) :
    (∃ mode, entry = .file mode content) ∨ content = [] := by
  cases entry with
  | file mode bytes =>
    simp only [openEntry] at h
    split at h
    · obtain rfl := Option.some.inj h
      exact .inl ⟨mode, rfl⟩
    · cases h
  | pipe mode =>
    simp only [openEntry] at h
    split at h
    · obtain rfl := Option.some.inj h
      exact .inr rfl
    · cases h
  | directory mode => cases h
  | link path => cases h
  | socket mode => cases h

/-- What is looked up with success stands somewhere in the site, and has been opened there. -/
theorem lookUp_eq_ok (h : lookUp site root url = .ok content) :
    ∃ place entry, site.at? place = some entry ∧ openEntry entry = some content := by
  simp only [lookUp] at h
  split at h
  · cases h
  · split at h
    · cases h
    · rename_i place entry hfind
      refine ⟨place, entry, Site.at?_of_find hfind, ?_⟩
      split at h
      · cases h
      · split at h
        · cases h
        · split at h
          · rename_i hopened
            obtain rfl := Except.ok.inj h
            exact hopened
          · cases h

/-- The content of a file that is found has a size of 64 bits. -/
theorem length_lookUp (hsite : site.Addressable) (h : lookUp site root url = .ok content) :
    content.length < Decimal.wordLimit := by
  obtain ⟨place, entry, hentry, hopened⟩ := lookUp_eq_ok h
  rcases openEntry_eq_some hopened with ⟨mode, rfl⟩ | rfl
  · exact hsite place mode content hentry
  · decide

/-- Under a script of calls that succeed a file is mapped as it is. -/
theorem mapContent_found {maps : Script} (hmaps : maps.Only Fault.succeeds) (content : Bytes) :
    (mapContent content maps).1 = .found content := by
  simp only [mapContent]
  split
  · rfl
  · rename_i reason rest
    exact (hmaps.head).elim
  · rfl

/-- What is answered does not depend on the script, as long as the calls succeed. -/
theorem locate_undisturbed {maps : Script} (hmaps : maps.Only Fault.succeeds) (site : Site)
    (root url : String) : (locate site root url maps).1 = (locate site root url []).1 := by
  have hnone : Script.Only Fault.succeeds [] := fun fault hf => absurd hf List.not_mem_nil
  simp only [locate]
  split
  · rfl
  · rw [mapContent_found hmaps, mapContent_found hnone]

/-- A lookup that fails does not come with a body. -/
theorem lookUp_ne_found (content : Bytes) : lookUp site root url ≠ .error (.found content) := by
  intro h
  simp only [lookUp] at h
  split at h
  · cases h
  · split at h
    · cases h
    · split at h
      · cases h
      · split at h
        · cases h
        · split at h
          · cases h
          · cases h

/-- The body of an answer has a size of 64 bits. -/
theorem length_locate (hsite : site.Addressable) (root url : String) :
    (locate site root url []).1.body.length < Decimal.wordLimit := by
  have hnone : Script.Only Fault.succeeds [] := fun fault hf => absurd hf List.not_mem_nil
  refine Resolution.length_body fun content hfound => ?_
  simp only [locate] at hfound
  split at hfound
  · rename_i hlookUp
    obtain rfl := hfound
    exact absurd hlookUp (lookUp_ne_found content)
  · rename_i hlookUp
    rw [mapContent_found hnone] at hfound
    obtain rfl := Resolution.found.inj hfound
    exact length_lookUp hsite hlookUp

end DocumentRoot

end FileServer
