import Telegraph.Login
import Telegraph.Proofs.ClientIdentity

namespace Telegraph
open Lib Function

section SplitOn
variable {α β : Type} [BEq α] {a b : α} {l s : List α}

theorem mem_of_mem_splitOn (hs : s ∈ l.splitOn a) (hb : b ∈ s) : b ∈ l := by
  induction l generalizing s with
  | nil => simp_all
  | cons x l ih =>
    rw [List.splitOn_cons_eq_if_modifyHead] at hs
    split at hs
    · rcases List.mem_cons.mp hs with rfl | hs
      · cases hb
      · exact List.mem_cons_of_mem x (ih hs hb)
    · obtain ⟨first, rest, hl⟩ := List.exists_cons_of_ne_nil (List.splitOn_ne_nil a l)
      rw [hl, List.modifyHead_cons] at hs
      rw [hl] at ih
      rcases List.mem_cons.mp hs with rfl | hs
      · rcases List.mem_cons.mp hb with rfl | hb
        · exact List.mem_cons_self
        · exact List.mem_cons_of_mem x (ih List.mem_cons_self hb)
      · exact List.mem_cons_of_mem x (ih (List.mem_cons_of_mem first hs) hb)

theorem splitOn_map [LawfulBEq α] [BEq β] [LawfulBEq β] {f : α → β} (hf : Injective f) :
    (l.map f).splitOn (f a) = (l.splitOn a).map (List.map f) := by
  induction l with
  | nil => simp
  | cons x l ih =>
    have hx : (f x == f a) = (x == a) := by
      rw [Bool.eq_iff_iff, beq_iff_eq, beq_iff_eq, hf.eq_iff]
    rw [List.map_cons, List.splitOn_cons_eq_if_modifyHead, List.splitOn_cons_eq_if_modifyHead, hx, ih]
    split
    · rfl
    · cases l.splitOn a <;> rfl

end SplitOn

theorem utf8_injective : Injective utf8 := by
  intro s t h
  have hdata : s.toUTF8.data = t.toUTF8.data := Array.toList_inj.mp h
  exact String.toByteArray_inj.mp (ByteArray.ext hdata)

namespace Cookies

/-- The value of the first `Cookie` header, in the bytes that were sent. -/
def cookieValue (headers : List (String × Bytes)) : Option Bytes :=
  (headers.find? (·.1 == "cookie")).map (·.2)

/-- The segments between the `;`s. -/
def segments (value : Bytes) : List Bytes := value.splitOn 59

/-- ASCII white space. -/
def isBlank (b : UInt8) : Bool := (9 ≤ b && b ≤ 13) || b == 32

/-- Name and value around the first `=`, without the blanks around them. -/
def nameValue (segment : Bytes) : Option (Bytes × Bytes) :=
  if 61 ∈ segment then
    some (strip isBlank (segment.takeWhile (· != 61)), strip isBlank ((segment.dropWhile (· != 61)).drop 1))
  else none

/-- A segment is a cookie of the session's name. -/
def Named (segment : Bytes) : Prop := ∃ value, nameValue segment = some (utf8 sessionCookie, value)

/-- The value of a session cookie, unless it is blank. -/
def accepted (pair : Bytes × Bytes) : Option Bytes :=
  if pair.1 = utf8 sessionCookie ∧ pair.2 ≠ [] then some pair.2 else none

/-- The session token a segment gives. -/
def carried (segment : Bytes) : Option Bytes := (nameValue segment).bind accepted

/-- Visible ASCII, a blank or a tab. -/
def Printable (b : UInt8) : Prop := 32 ≤ b ∧ b < 127 ∨ b = 9

instance (b : UInt8) : Decidable (Printable b) :=
  inferInstanceAs (Decidable (32 ≤ b ∧ b < 127 ∨ b = 9))

/-- No segment gives a token; or all of the header is text and every segment before the first
that gives one has a `=`. -/
def Reaches (value : Bytes) : Prop :=
  (∀ s ∈ segments value, carried s = none) ∨
    (∀ b ∈ value, Printable b) ∧ ∀ s ∈ (segments value).takeWhile (carried · == none), 61 ∈ s

section Text
variable {b c : UInt8} {v : Bytes}

/-- The character `to_str` takes a byte for. -/
def toChar (b : UInt8) : Char := Char.ofNat b.toNat

def text (v : Bytes) : String := String.ofList (v.map toChar)

theorem toNat_toChar : (toChar b).toNat = b.toNat := by
  have hvalid : b.toNat.isValidChar := Or.inl (Nat.lt_trans b.toNat_lt (by decide))
  rw [toChar, Char.ofNat, dif_pos hvalid]
  rfl

theorem toChar_injective : Injective toChar := by
  intro b c h
  rw [← UInt8.toNat_inj, ← toNat_toChar, ← toNat_toChar, h]

theorem all_printable : (v.all fun b => (32 ≤ b && b < 127) || b == 9) = true ↔ ∀ b ∈ v, Printable b := by
  simp [Printable]

theorem headerText_text (h : ∀ b ∈ v, Printable b) : Api.headerText v = some (text v) :=
  if_pos (all_printable.mpr h)

theorem headerText_other (h : ¬ ∀ b ∈ v, Printable b) : Api.headerText v = none :=
  if_neg (mt all_printable.mp h)

theorem Printable.lt (h : Printable b) : b.toNat < 127 := by
  rcases h with ⟨-, h⟩ | rfl
  · exact UInt8.lt_iff_toNat_lt.mp h
  · decide

theorem isWhitespace_toChar (h : Printable b) : isWhitespace (toChar b) = isBlank b := by
  have hall : ∀ n < 127, isWhitespace (Char.ofNat n) = isBlank (UInt8.ofNat n) := by decide
  have hb := hall b.toNat h.lt
  rwa [UInt8.ofNat_toNat] at hb

/-- The text has the bytes it was read from. -/
theorem utf8_text (h : ∀ b ∈ v, Printable b) : utf8 (text v) = v := by
  have hlow : ∀ c ∈ (text v).toList, c.toNat < 128 := by
    intro c hc
    rw [text, String.toList_ofList] at hc
    obtain ⟨b, hb, rfl⟩ := List.mem_map.mp hc
    rw [toNat_toChar]
    exact Nat.lt_succ_of_lt (h b hb).lt
  have hback : (fun c : Char => c.toNat.toUInt8) ∘ toChar = id := by
    funext b
    rw [comp_apply, toNat_toChar, Nat.toUInt8_eq, UInt8.ofNat_toNat, id]
  rw [utf8_ascii hlow, text, String.toList_ofList, List.map_map, hback, List.map_id]

theorem text_inj {w : Bytes} (h : text v = text w) : v = w :=
  toChar_injective.list_map (String.ofList_injective h)

theorem trim_text (h : ∀ b ∈ v, Printable b) : trim (text v) = text (strip isBlank v) := by
  apply String.toList_injective
  rw [toList_trim, text, String.toList_ofList, Strip.strip_map fun b hb => isWhitespace_toChar (h b hb),
    text, String.toList_ofList]

theorem splitOnce_text : splitOnce '=' (text v) =
    if 61 ∈ v then some (text (v.takeWhile (· != 61)), text ((v.dropWhile (· != 61)).drop 1)) else none := by
  have heq : ∀ b, (toChar b != '=') = (b != 61) := by
    intro b
    rw [show ('=' : Char) = toChar 61 from rfl, Bool.eq_iff_iff, bne_iff_ne, bne_iff_ne,
      toChar_injective.ne_iff]
  have hcomp : (· != '=') ∘ toChar = (· != 61) := funext heq
  rw [splitOnce, text, String.toList_ofList, List.dropWhile_map, List.takeWhile_map, hcomp]
  cases hd : v.dropWhile (· != 61) with
  | nil =>
    have hno : 61 ∉ v := fun hmem => by
      simpa using List.dropWhile_eq_nil_iff.mp hd 61 hmem
    simp [hno]
  | cons b rest =>
    have hmem : 61 ∈ v := by
      by_contra hno
      have hall : ∀ c ∈ v, (c != 61) = true := fun c hc => bne_iff_ne.mpr fun e => hno (e ▸ hc)
      rw [List.dropWhile_eq_nil_iff.mpr hall] at hd
      cases hd
    simp [hmem, text]

end Text

section Search
variable {segment : Bytes} {value : Bytes}

theorem nameValue_append {name : Bytes} (h : 61 ∉ name) :
    nameValue (name ++ 61 :: value) = some (strip isBlank name, strip isBlank value) := by
  have hname : ∀ b ∈ name, (b != 61) = true := fun b hb => bne_iff_ne.mpr fun e => h (e ▸ hb)
  rw [nameValue, if_pos (by simp), List.takeWhile_append_of_pos hname, List.dropWhile_append_of_pos hname,
    List.takeWhile_cons_of_neg (by simp), List.dropWhile_cons_of_neg (by simp), List.append_nil,
    List.drop_one, List.tail_cons]

/-- Blanks around a segment do not change what it says. -/
theorem nameValue_strip (segment : Bytes) : nameValue (strip isBlank segment) = nameValue segment := by
  by_cases h : 61 ∈ segment
  · obtain ⟨name, value, rfl, hname⟩ := List.eq_append_cons_of_mem h
    have hstart : 61 ∉ name.dropWhile isBlank :=
      fun hmem => hname ((List.dropWhile_sublist _).subset hmem)
    rw [Strip.strip_around (by decide), nameValue_append hstart, nameValue_append hname,
      Strip.strip_dropWhile, Strip.strip_rdropWhile]
  · rw [nameValue, nameValue, if_neg h, if_neg (mt (Strip.mem_strip (by decide)).mp h)]

theorem carried_strip (segment : Bytes) : carried (strip isBlank segment) = carried segment := by
  rw [carried, nameValue_strip, carried]

theorem carried_none (h : 61 ∉ segment) : carried segment = none := by
  rw [carried, nameValue, if_neg h, Option.bind_none]

theorem carried_of_not_named (h : ¬ Named segment) : carried segment = none := by
  rw [carried]
  cases hn : nameValue segment with
  | none => rfl
  | some pair =>
    rw [Option.bind_some, accepted, if_neg]
    rintro ⟨hname, -⟩
    exact h ⟨pair.2, hn.trans (by rw [← hname])⟩

/-- A token is part of its segment. -/
theorem carried_subset {token : Bytes} (h : carried segment = some token) : token ⊆ segment := by
  obtain ⟨pair, hn, ha⟩ := Option.bind_eq_some_iff.mp h
  obtain ⟨-, hpair⟩ := Option.ite_none_right_eq_some.mp hn
  obtain ⟨-, htoken⟩ := Option.ite_none_right_eq_some.mp ha
  cases hpair
  cases htoken
  intro b hb
  exact (List.dropWhile_sublist _).subset (List.mem_of_mem_drop (Strip.strip_subset hb))

theorem accepted_text {name value : Bytes} (hname : ∀ b ∈ name, Printable b)
    (hvalue : ∀ b ∈ value, Printable b) :
    (if trim (text name) == sessionCookie && !(trim (text value)).isEmpty then some (trim (text value)) else none) =
      (accepted (strip isBlank name, strip isBlank value)).map text := by
  have hplain : text (utf8 sessionCookie) = sessionCookie := by decide +kernel
  have hsame : text (strip isBlank name) = sessionCookie ↔ strip isBlank name = utf8 sessionCookie := by
    rw [← hplain]
    exact ⟨fun h => by rw [hplain, ← hplain] at h; exact text_inj h, congrArg text⟩
  have hempty : text (strip isBlank value) = "" ↔ strip isBlank value = [] :=
    ⟨fun h => text_inj (h.trans rfl), fun h => by rw [h]; rfl⟩
  rw [trim_text hname, trim_text hvalue, accepted]
  by_cases h : strip isBlank name = utf8 sessionCookie ∧ strip isBlank value ≠ []
  · rw [if_pos h, if_pos (by simpa [hsame, hempty] using h)]
    rfl
  · rw [if_neg h, if_neg (by simpa [hsame, hempty] using h)]
    rfl

/-- One pass of the loop. -/
theorem findSession_cons (h : ∀ b ∈ segment, Printable b) (rest : List (List Char)) :
    findSession (segment.map toChar :: rest) =
      if 61 ∈ segment then ((carried segment).map text).or (findSession rest) else none := by
  have hstrip : ∀ b ∈ strip isBlank segment, Printable b := fun b hb => h b (Strip.strip_subset hb)
  have hname : ∀ b ∈ (strip isBlank segment).takeWhile (· != 61), Printable b :=
    fun b hb => hstrip b ((List.takeWhile_sublist _).subset hb)
  have hvalue : ∀ b ∈ ((strip isBlank segment).dropWhile (· != 61)).drop 1, Printable b :=
    fun b hb => hstrip b ((List.dropWhile_sublist _).subset (List.mem_of_mem_drop hb))
  have hmem : 61 ∈ strip isBlank segment ↔ 61 ∈ segment := Strip.mem_strip (by decide)
  rw [findSession, show String.ofList (segment.map toChar) = text segment from rfl, trim_text h,
    splitOnce_text, ← carried_strip segment, carried, nameValue]
  by_cases he : 61 ∈ segment
  · simp only [hmem.mpr he, he, if_true, Option.bind_some]
    rw [← accepted_text hname hvalue]
    split <;> rfl
  · simp only [mt hmem.mp he, he, if_false]

/-- The search finds the first token exactly when nothing without `=` stands before it. -/
theorem findSession_iff {list : List Bytes} (h : ∀ s ∈ list, ∀ b ∈ s, Printable b) :
    (findSession (list.map (·.map toChar))).map utf8 = list.findSome? carried ↔
      (∀ s ∈ list, carried s = none) ∨ ∀ s ∈ list.takeWhile (carried · == none), 61 ∈ s := by
  induction list with
  | nil => simp [findSession]
  | cons segment rest ih =>
    have hsegment := h segment List.mem_cons_self
    rw [List.map_cons, findSession_cons hsegment, List.findSome?_cons]
    by_cases hmem : 61 ∈ segment
    · cases hc : carried segment with
      | some token =>
        have htoken : utf8 (text token) = token :=
          utf8_text fun b hb => hsegment b (carried_subset hc hb)
        simp [hmem, hc, htoken]
      | none => simp [hmem, hc, ih fun s hs => h s (List.mem_cons_of_mem segment hs)]
    · have hnone : none = rest.findSome? carried ↔ ∀ s ∈ rest, carried s = none := by
        rw [eq_comm, List.findSome?_eq_none_iff]
      simp [hmem, carried_none hmem, hnone]

/-- The code searches a header that is all text, -/
theorem readSessionCookie_text {headers : List (String × Bytes)} {value : Bytes}
    (h : cookieValue headers = some value) (htext : ∀ b ∈ value, Printable b) :
    readSessionCookie headers = findSession ((segments value).map (·.map toChar)) := by
  obtain ⟨entry, hentry, rfl⟩ := Option.map_eq_some_iff.mp h
  have hsplit : (text entry.2).toList.splitOn ';' = (segments entry.2).map (·.map toChar) := by
    rw [text, String.toList_ofList, show ';' = toChar 59 from rfl, splitOn_map toChar_injective, segments]
  rw [readSessionCookie, hentry, ← hsplit]
  simp only [Option.bind_eq_bind, Option.bind_some, headerText_text htext]

/-- and no other. -/
theorem readSessionCookie_other {headers : List (String × Bytes)} {value : Bytes}
    (h : cookieValue headers = some value) (htext : ¬ ∀ b ∈ value, Printable b) :
    readSessionCookie headers = none := by
  obtain ⟨entry, hentry, rfl⟩ := Option.map_eq_some_iff.mp h
  rw [readSessionCookie, hentry]
  simp only [Option.bind_eq_bind, Option.bind_some, headerText_other htext, Option.bind_none]

/-- The bytes of what the code reads. -/
theorem readSessionCookie_bytes {headers : List (String × Bytes)} {value : Bytes}
    (h : cookieValue headers = some value) :
    (readSessionCookie headers).map utf8 = (segments value).findSome? carried ↔ Reaches value := by
  by_cases htext : ∀ b ∈ value, Printable b
  · have hsegments : ∀ s ∈ segments value, ∀ b ∈ s, Printable b :=
      fun s hs b hb => htext b (mem_of_mem_splitOn hs hb)
    rw [readSessionCookie_text h htext, findSession_iff hsegments, Reaches]
    exact or_congr_right (and_iff_right htext).symm
  · rw [readSessionCookie_other h htext, Option.map_none, eq_comm, List.findSome?_eq_none_iff, Reaches]
    exact (or_iff_left fun hr => htext hr.1).symm

end Search

section Tokens
variable {entropy : Bytes}

/-- The pair a browser keeps of a `Set-Cookie` value. -/
def cookiePair (token : String) : String :=
  String.ofList ((setSessionCookie token).toList.takeWhile (· != ';'))

/-- A character as in a token and in the session cookie's name. -/
def Plain (c : Char) : Prop := 32 < c.toNat ∧ c.toNat < 127 ∧ c ≠ ';' ∧ c ≠ '='

instance (c : Char) : Decidable (Plain c) :=
  inferInstanceAs (Decidable (32 < c.toNat ∧ c.toNat < 127 ∧ c ≠ ';' ∧ c ≠ '='))

theorem trim_of_plain {s : String} (h : ∀ c ∈ s.toList, Plain c) : trim s = s := by
  have hspace : ∀ c ∈ s.toList, isWhitespace c = false := by
    intro c hc
    obtain ⟨hlow, hhigh, -⟩ := h c hc
    simp only [isWhitespace, Bool.or_eq_false_iff, Bool.and_eq_false_iff, decide_eq_false_iff_not,
      beq_eq_false_iff_ne]
    omega
  apply String.toList_injective
  rw [toList_trim, Strip.strip_of_none hspace]

theorem generateToken_plain : ∀ c ∈ (Tokens.generateToken entropy).toList, Plain c := by
  intro c hc
  obtain ⟨n, hn, rfl⟩ := Hex.mem_text hc
  have hall : ∀ n < 16, Plain (Hex.digit n) := by decide
  exact hall n hn

theorem sessionCookie_plain : ∀ c ∈ sessionCookie.toList, Plain c := by
  have hall : sessionCookie.toList.all (decide <| Plain ·) = true := by decide +kernel
  exact fun c hc => of_decide_eq_true (List.all_eq_true.mp hall c hc)

/-- The byte of a plain character is neither a blank nor a separator. -/
theorem utf8_plain {s : String} (h : ∀ c ∈ s.toList, Plain c) :
    ∀ b ∈ utf8 s, Printable b ∧ isBlank b = false ∧ b ≠ 59 ∧ b ≠ 61 := by
  intro b hb
  rw [utf8_ascii fun c hc => Nat.lt_succ_of_lt (h c hc).2.1] at hb
  obtain ⟨c, hc, rfl⟩ := List.mem_map.mp hb
  have hall : ∀ n < 127, Plain (Char.ofNat n) → Printable n.toUInt8 ∧ isBlank n.toUInt8 = false ∧
      n.toUInt8 ≠ 59 ∧ n.toUInt8 ≠ 61 := by decide
  exact hall c.toNat (h c hc).2.1 (by rw [Char.ofNat_toNat]; exact h c hc)

theorem cookiePair_generateToken :
    cookiePair (Tokens.generateToken entropy) = sessionCookie ++ "=" ++ Tokens.generateToken entropy := by
  apply String.toList_injective
  have hpair : ∀ c ∈ (sessionCookie ++ "=" ++ Tokens.generateToken entropy).toList, (c != ';') = true := by
    intro c hc
    rw [String.toList_append, String.toList_append, List.mem_append, List.mem_append] at hc
    rcases hc with (hc | hc) | hc
    · exact bne_iff_ne.mpr (sessionCookie_plain c hc).2.2.1
    · rw [List.mem_singleton.mp hc]
      decide
    · exact bne_iff_ne.mpr (generateToken_plain c hc).2.2.1
  have hend : "; Path=/monitor; Max-Age=1209600; HttpOnly; Secure; SameSite=Lax".toList.takeWhile
      (· != ';') = [] := by decide +kernel
  rw [cookiePair, String.toList_ofList, setSessionCookie, String.toList_append,
    List.takeWhile_append_of_pos hpair, hend, List.append_nil]

theorem utf8_append (s t : String) : utf8 (s ++ t) = utf8 s ++ utf8 t := by
  simp only [utf8, String.toUTF8_eq_toByteArray, String.toByteArray_append, ByteArray.data_append,
    Array.toList_append]

/-- The pair gives the token back. -/
theorem carried_cookiePair (h : entropy ≠ []) :
    carried (utf8 (cookiePair (Tokens.generateToken entropy))) = some (utf8 (Tokens.generateToken entropy)) := by
  have hname := utf8_plain sessionCookie_plain
  have hplain : ∀ c ∈ (Tokens.generateToken entropy).toList, Plain c := generateToken_plain
  have htoken := utf8_plain hplain
  have hne : utf8 (Tokens.generateToken entropy) ≠ [] :=
    fun hnil => Hex.text_ne h (utf8_injective (hnil.trans (by decide +kernel)))
  have hpair : utf8 (cookiePair (Tokens.generateToken entropy)) =
      utf8 sessionCookie ++ 61 :: utf8 (Tokens.generateToken entropy) := by
    rw [cookiePair_generateToken, utf8_append, utf8_append, List.append_assoc]
    rfl
  rw [hpair, carried, nameValue_append fun hmem => (hname 61 hmem).2.2.2 rfl, Option.bind_some,
    Strip.strip_of_none fun b hb => (hname b hb).2.1, Strip.strip_of_none fun b hb => (htoken b hb).2.1,
    accepted, if_pos ⟨rfl, hne⟩]

end Tokens

theorem reaches_embedded {value segment token : Bytes} {before after : List Bytes}
    (hvalue : segments value = before ++ segment :: after) (hcarried : carried segment = some token)
    (hbefore : ∀ s ∈ before, carried s = none) :
    Reaches value ↔ (∀ b ∈ value, Printable b) ∧ ∀ s ∈ before, 61 ∈ s := by
  have hskip : (segments value).takeWhile (carried · == none) = before := by
    rw [hvalue, List.takeWhile_append_of_pos (by simpa using hbefore),
      List.takeWhile_cons_of_neg (by simp [hcarried]), List.append_nil]
  rw [Reaches, hskip]
  refine or_iff_right fun hnone => ?_
  rw [hnone segment (by simp [hvalue])] at hcarried
  cases hcarried

/-- A session cookie is found exactly when the header is text and nothing without `=` stands
before the cookie. -/
theorem readSessionCookie_iff (headers : List (String × Bytes)) :
    ((readSessionCookie headers).map utf8 =
        (cookieValue headers).bind (fun value => (segments value).findSome? carried) ↔
      ∀ value ∈ cookieValue headers, Reaches value) ∧
    ∀ (entropy value segment : Bytes) (before after : List Bytes),
      entropy.length = 32 → cookieValue headers = some value →
      segments value = before ++ segment :: after →
      strip isBlank segment = utf8 (cookiePair (Tokens.generateToken entropy)) →
      (∀ s ∈ before, ¬ Named s) →
      (readSessionCookie headers = some (Tokens.generateToken entropy) ↔
        (∀ b ∈ value, Printable b) ∧ ∀ s ∈ before, 61 ∈ s) := by
  constructor
  · cases hv : cookieValue headers with
    | none => simp [readSessionCookie, Option.map_eq_none_iff.mp hv]
    | some value => simpa using readSessionCookie_bytes hv
  · intro entropy value segment before after hlength hv hsegments hpair hbefore
    have hne : entropy ≠ [] := by
      rintro rfl
      cases hlength
    have hcarried : carried segment = some (utf8 (Tokens.generateToken entropy)) := by
      rw [← carried_strip, hpair, carried_cookiePair hne]
    have hnone : ∀ s ∈ before, carried s = none := fun s hs => carried_of_not_named (hbefore s hs)
    have hfirst : (segments value).findSome? carried = some (utf8 (Tokens.generateToken entropy)) := by
      rw [hsegments, List.findSome?_append, List.findSome?_eq_none_iff.mpr hnone, Option.none_or,
        List.findSome?_cons_of_isSome (by simp [hcarried]), hcarried]
    rw [← reaches_embedded hsegments hcarried hnone, ← readSessionCookie_bytes hv, hfirst]
    exact (Option.map_injective utf8_injective).eq_iff.symm

theorem session_found :
    readSessionCookie [("cookie", utf8 "theme=dark" ++ 59 :: (32 ::
        utf8 (cookiePair (Tokens.generateToken (List.replicate 32 0))) ++ 59 :: utf8 "lang"))] =
      some (Tokens.generateToken (List.replicate 32 0)) := by
  have hother : ∀ s ∈ [utf8 "theme=dark"], ¬ Named s := by
    rintro s hs ⟨value, hn⟩
    rw [List.mem_singleton.mp hs] at hn
    have hname : (nameValue (utf8 "theme=dark")).map Prod.fst ≠ some (utf8 sessionCookie) := by decide +kernel
    exact hname (by rw [hn, Option.map_some])
  refine ((readSessionCookie_iff _).2 (List.replicate 32 0) _
    (32 :: utf8 (cookiePair (Tokens.generateToken (List.replicate 32 0)))) [utf8 "theme=dark"] [utf8 "lang"]
    List.length_replicate rfl ?_ ?_ hother).mpr ⟨?_, ?_⟩ <;> decide +kernel

/-- A segment without `=` hides the session behind it, and a letter outside ASCII hides the
session of the whole header. -/
theorem session_hidden :
    (∃ value, value = utf8 "flag; telegraph_operator_session=tok" ∧
      (segments value).findSome? carried = some (utf8 "tok") ∧ readSessionCookie [("cookie", value)] = none) ∧
    ∃ value, value = utf8 "theme=café; telegraph_operator_session=tok" ∧
      (segments value).findSome? carried = some (utf8 "tok") ∧ readSessionCookie [("cookie", value)] = none := by
  refine ⟨⟨_, rfl, ?_, ?_⟩, ⟨_, rfl, ?_, ?_⟩⟩ <;> decide +kernel

end Cookies
end Telegraph
