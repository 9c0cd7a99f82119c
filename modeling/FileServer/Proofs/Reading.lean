import FileServer.Connection
import FileServer.Proofs.Wire
import FileServer.Proofs.Request.Resumption

/-!
# Filling the input buffer

A connection reads until its buffer is full or the kernel has nothing more to give. As long as the
client stays and no read fails, what has been read is the first part of what was waiting, and none
of it is lost between the stream and the buffer (`Request.Reader.fill_spec`). A read that is merely
short or interrupted is followed by another one, so then all is taken that fits.
-/

namespace FileServer

namespace Request.Reader

/-- Reading from a stream has put bytes into the buffer: they were the first that waited there,
and are waiting no more. The scripts are used up from the front, and the one for writes is not
touched. -/
structure Filled (r : Reader) (w : Wire) (s : Stream) (taken : Bytes) (w' : Wire) : Prop where
  fill_eq : r.fill w = (true, r.feed taken, w')
  first : taken <+: s.inbound
  fits : r.input.used + taken.length ≤ r.input.capacity
  stream : w'.stream = some (s.took taken.length)
  reads : w'.reads <:+ w.reads
  writes : w'.writes = w.writes

theorem fill_full {r : Reader} {w : Wire} (h : r.input.capacity ≤ r.input.used) :
    r.fill w = (true, r, w) := by
  rw [fill, dif_pos h]

theorem fill_block {r : Reader} {w w' : Wire} (h : ¬r.input.capacity ≤ r.input.used)
    (hread : w.read r.input.room = (.wouldBlock, w')) : r.fill w = (true, r, w') := by
  rw [fill, dif_neg h, hread]

/-- A read that has brought something is followed by another one; this is the step of the
induction below. -/
theorem fill_data {r : Reader} {w w' : Wire} {b : UInt8} {bytes : Bytes}
    (h : ¬r.input.capacity ≤ r.input.used)
    (hread : w.read r.input.room = (.data (b :: bytes), w')) :
    r.fill w = (r.feed (b :: bytes)).fill w' := by
  rw [fill, dif_neg h, hread]
  rfl

/-- What a read has taken off the stream and what the reads after it take make up one part. -/
theorem Filled.cons {r : Reader} {w w' w'' : Wire} {s : Stream} {taken more : Bytes}
    (hr : r.InOrder) (hfill : r.fill w = (r.feed taken).fill w') (hfirst : taken <+: s.inbound)
    (hreads : w'.reads <:+ w.reads) (hwrites : w'.writes = w.writes)
    (hfits : r.input.used + taken.length ≤ r.input.capacity)
    (h : Filled (r.feed taken) w' (s.took taken.length) more w'') :
    Filled r w s (taken ++ more) w'' := by
  have hcap : (r.feed taken).input.capacity = r.input.capacity := Buffer.capacity_append hfits
  have hused : (r.feed taken).input.used = r.input.used + taken.length := rfl
  have hmore := h.fits
  rw [hcap, hused] at hmore
  refine ⟨?_, ?_, ?_, ?_, h.reads.trans hreads, h.writes.trans hwrites⟩
  · rw [hfill, h.fill_eq, hr.feed_feed]
  · obtain ⟨rest, hrest⟩ := hfirst
    have hthen := h.first
    rw [Stream.took, ← hrest, List.drop_left] at hthen
    rw [← hrest]
    exact (List.prefix_append_right_inj _).mpr hthen
  · rw [List.length_append]
    omega
  · rw [h.stream, Stream.took_took, List.length_append]

/-- **Reading loses nothing.** Under gentle faults some first part of what waits is read into the
buffer; under short faults it is all that fits. The induction follows the loop: what a read takes
off the stream is put in front of what the reads after it take. -/
theorem fill_spec {r : Reader} {w : Wire} {s : Stream} (hr : r.InOrder) (hs : w.stream = some s)
    (hl : s.IsLively) (hw : w.reads.Only Fault.isGentleRead) :
    ∃ taken w', Filled r w s taken w' ∧
      (w.reads.Only Fault.isShort → taken = s.inbound.take r.input.room) := by
  induction r, w using Reader.fill.induct generalizing s with
  | case1 r w hfull =>
    refine ⟨[], w, ⟨?_, List.nil_prefix, hr.fits, hs, List.suffix_refl _, rfl⟩, ?_⟩
    · rw [hr.feed_nil, fill_full hfull]
    · intro _
      rw [Buffer.room, Nat.sub_eq_zero_of_le hfull, List.take_zero]
  -- a lively stream's reads are gentle: neither its end is read nor an error
  | case2 r w hroom w' hread =>
    have hlt := Nat.sub_pos_of_lt (Nat.lt_of_not_le hroom)
    rcases Wire.read_gentle hs hl hlt hw with h | ⟨b, bytes, h⟩
    · rw [← Buffer.room, hread] at h
      cases h
    · rw [← Buffer.room, hread] at h
      cases h
  -- bytes are read, and the reads behind them fill what room they left
  | case3 r w hroom b bytes w' hread ih =>
    have hgiven := w.read_given r.input.room
    have hscripts := w.read_scripts r.input.room
    rw [hread, hs] at hgiven
    rw [hread] at hscripts
    obtain ⟨hlen, hfirst, hstream⟩ := hgiven
    obtain ⟨hreads, hwrites⟩ := hscripts
    have hfits : r.input.used + (b :: bytes).length ≤ r.input.capacity := by
      rw [Buffer.room] at hlen
      omega
    have horder : (r.feed (b :: bytes)).InOrder :=
      ⟨hr.lineStart_le, Nat.le_trans hr.scanned_le (Nat.le_add_right ..), Buffer.fits_append hfits⟩
    obtain ⟨more, w'', hfilled, hshort⟩ :=
      ih horder hstream (s := s.took (b :: bytes).length) hl (hw.suffix hreads)
    refine ⟨b :: bytes ++ more, w'',
      hfilled.cons hr (fill_data hroom hread) hfirst hreads hwrites hfits, ?_⟩
    intro h
    obtain ⟨rest, hrest⟩ := hfirst
    have hrest' : b :: bytes ++ rest = s.inbound := hrest
    have hroom' : (r.input.append (b :: bytes)).room = r.input.room - (b :: bytes).length := by
      rw [Buffer.room, Buffer.room, Buffer.capacity_append hfits, Buffer.used_append, Nat.sub_sub]
    rw [hshort (h.suffix hreads), hroom', Stream.took, ← hrest', List.drop_left,
      List.take_append, List.take_of_length_le hlen]
  -- nothing is there to read
  | case4 r w hroom w' hread =>
    have hgiven := w.read_given r.input.room
    have hscripts := w.read_scripts r.input.room
    rw [hread, hs] at hgiven
    rw [hread] at hscripts
    refine ⟨[], w', ⟨?_, List.nil_prefix, hr.fits, hgiven, hscripts.1, hscripts.2⟩, ?_⟩
    · rw [hr.feed_nil, fill_block hroom hread]
    · intro h
      have hpos : 0 < r.input.room := Nat.sub_pos_of_lt (Nat.lt_of_not_le hroom)
      rw [Wire.read_short hs hl hpos h (by rw [hread]), List.take_nil]
  -- as for the stream's end
  | case5 r w hroom reason w' hread =>
    have hlt := Nat.sub_pos_of_lt (Nat.lt_of_not_le hroom)
    rcases Wire.read_gentle hs hl hlt hw with h | ⟨b, bytes, h⟩
    · rw [← Buffer.room, hread] at h
      cases h
    · rw [← Buffer.room, hread] at h
      cases h

end Request.Reader

namespace Connection

/-- To read all there is, with room in the buffer, is to fill the buffer. -/
theorem readAll_of_room {c : Connection} (h : c.reader.input.used < c.reader.input.capacity)
    (w : Wire) :
    c.readAll w =
      ((c.reader.fill w).1, { c with reader := (c.reader.fill w).2.1 }, (c.reader.fill w).2.2) := by
  rw [readAll, if_neg (Nat.not_le_of_lt h)]

/-- A full buffer is not read into. -/
theorem readAll_of_full {c : Connection} (h : c.reader.input.capacity ≤ c.reader.input.used)
    (w : Wire) : c.readAll w = (false, c, w) := by
  rw [readAll, if_pos h]

end Connection

end FileServer
