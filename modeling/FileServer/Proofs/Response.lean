import FileServer.Decimal
import FileServer.Proofs.Delivery

/-!
# Every response fits

The head of a response has four lines of which only the length is not fixed, and a length of 64 bits
has twenty digits at most. So head and page of every response fit the buffer that they are laid out
in (`Delivery.lay?_isSome`).
-/

namespace FileServer

/-- A character takes four bytes at most. -/
theorem Bytes.length_ofText_le (s : String) : (ofText s).length ≤ 4 * s.length := by
  have hencode : ∀ l : List Char, l.utf8Encode.size ≤ 4 * l.length := by
    intro l
    induction l with
    | nil => exact Nat.le_refl _
    | cons c rest ih =>
      have hsize := c.utf8Size_le_four
      have hone : [c].utf8Encode.size = c.utf8Size := by
        rw [List.utf8Encode_singleton, List.size_toByteArray, String.length_utf8EncodeChar]
      rw [List.utf8Encode_cons, ByteArray.size_append, hone, List.length_cons]
      omega
  have hbytes := hencode s.toList
  rw [String.utf8Encode_toList, String.length_toList] at hbytes
  exact hbytes

/-- The longest page is that for bad requests; where a file is sent there is none. -/
theorem Resolution.length_page_le (r : Resolution) : r.page.length ≤ 68 := by
  cases r <;> simp only [page] <;> decide

/-- The body is as long as a number of 64 bits can say, if a file that is sent is. -/
theorem Resolution.length_body {r : Resolution}
    (hr : ∀ content, r = .found content → content.length < Decimal.wordLimit) :
    r.body.length < Decimal.wordLimit := by
  have hpage := Bytes.length_ofText_le r.page
  have hpage' := r.length_page_le
  have hlimit : 272 < Decimal.wordLimit := by decide
  cases r with
  | found content => exact hr content rfl
  | _ =>
    simp only [body, file?, Option.getD_none, List.length_append, List.length_nil]
    omega

namespace Response

variable {r : Resolution}

/-- A number of 64 bits has at most twenty digits. Four bytes are allowed for each here, by
`Bytes.length_ofText_le`, as there is room for them. -/
theorem length_decimal_le {n : Nat} (hn : n < Decimal.wordLimit) : (decimal n).length ≤ 80 := by
  have hdigits : (toString n).length ≤ 20 :=
    (Nat.length_repr_le_iff (by decide)).mpr (Nat.lt_of_lt_of_le hn (by decide))
  have hbytes := Bytes.length_ofText_le (toString n)
  rw [decimal]
  omega

/-- The line for a status is short, whichever of the few it is. -/
theorem length_statusLine_le (r : Resolution) : (statusLine r).length ≤ 176 := by
  have hproto := Bytes.length_ofText_le "HTTP/1.1 "
  have hstatus : (decimal r.status).length ≤ 80 := by
    refine length_decimal_le ?_
    cases r <;> simp only [Resolution.status] <;> decide
  have hblank := Bytes.length_ofText_le " "
  have htitle := Bytes.length_ofText_le r.title
  have htitle' : r.title.length ≤ 14 := by
    cases r <;> simp only [Resolution.title] <;> decide
  have h₁ : "HTTP/1.1 ".length = 9 := rfl
  have h₂ : " ".length = 1 := rfl
  simp only [statusLine, List.length_append]
  omega

/-- Head and page of a response fit the buffer for the head. -/
theorem length_head_le (keepAlive : Bool) (hr : r.body.length < Decimal.wordLimit) :
    (head r keepAlive).length + (Bytes.ofText r.page).length ≤ headCapacity := by
  have hstatus := length_statusLine_le r
  have hlength := Bytes.length_ofText_le "Content-Length: "
  have hdecimal := length_decimal_le hr
  have htype := Bytes.length_ofText_le "Content-Type: text/html"
  have hconnection := Bytes.length_ofText_le "Connection: "
  have hvalue : (connectionValue keepAlive).length ≤ 40 := by
    cases keepAlive <;> decide +kernel
  have hpage := Bytes.length_ofText_le r.page
  have hpage' := r.length_page_le
  have h₁ : "Content-Length: ".length = 16 := rfl
  have h₂ : "Content-Type: text/html".length = 23 := rfl
  have h₃ : "Connection: ".length = 12 := rfl
  have hend : lineEnd.length = 2 := rfl
  have hcapacity : headCapacity = 1024 := rfl
  simp only [head, headLines, List.flatMap_cons, List.flatMap_nil, List.length_append,
    List.length_nil, hend]
  omega

end Response

/-- Every response can be laid out in a buffer of the size for heads. -/
theorem Delivery.lay?_isSome {d : Delivery} (hd : d.head.capacity = headCapacity) {r : Resolution}
    (keepAlive : Bool) (hr : r.body.length < Decimal.wordLimit) :
    ∃ d', d.lay? r keepAlive = some d' := by
  have hfits := Response.length_head_le keepAlive hr
  have hroom : (Response.head r keepAlive).length ≤ d.head.clear.room := by
    rw [Buffer.room, Buffer.capacity_clear, hd, Buffer.used_clear]
    omega
  have hfits₁ : d.head.clear.used + (Response.head r keepAlive).length ≤ d.head.clear.capacity := by
    rw [Buffer.capacity_clear, hd, Buffer.used_clear]
    omega
  have hroom' : (Bytes.ofText r.page).length ≤
      (d.head.clear.append (Response.head r keepAlive)).room := by
    rw [Buffer.room, Buffer.capacity_append hfits₁, Buffer.capacity_clear, hd, Buffer.used_append,
      Buffer.used_clear]
    omega
  have hhead := Buffer.append?_eq_some.mpr ⟨hroom, rfl⟩
  have hpage := Buffer.append?_eq_some.mpr ⟨hroom', rfl⟩
  exact ⟨_, by rw [lay?, hhead]; dsimp only [bind, Option.bind]; rw [hpage]; rfl⟩

end FileServer
