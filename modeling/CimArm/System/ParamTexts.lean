import CimArm.Lib.Buffer
import CimArm.Lib.Trace
import CimArm.Telesup.G2RemoteProxy

/-!
# Texts among the parameters of a map

`addParamAsText` escapes a text into the buffer of the map and keeps a copy of the string there.
The loop asks for a backslash only where it has found a line feed, and it writes no NUL behind the
text, so that the end of a longer one stays.

* `texts_restored`: a text comes back from its copy when nothing is left behind it and it has
  no backslash with two hexadecimal digits.
-/

namespace CimArm

open Telesup List

/-- `char doc[16535]` -/
def docSize : Nat := 16535

/-- The loop of `fillTextSpecialCharacter`, from a place of the buffer on. -/
def fillTextSpecialCharacter : List UInt8 → List UInt8 → Nat → List UInt8
  | [], finalDoc, _ => finalDoc
  | p :: doc, finalDoc, count =>
    if p ≠ newline then fillTextSpecialCharacter doc (finalDoc.set count p) (count + 1)
    else
      let finalDoc := finalDoc.set count backslash
      let finalDoc :=
        if p = backslash then (finalDoc.set (count + 1) 0x35).set (count + 2) 0x43
        else (finalDoc.set (count + 1) 0x30).set (count + 2) 0x41
      fillTextSpecialCharacter doc finalDoc (count + 3)

structure MapItem : Type where
  name : List UInt8
  text : List UInt8

structure Map : Type where
  items : List MapItem
  doc : List UInt8

namespace Map

/-- The memory of a new object is zero. -/
def new : Map := ⟨[], List.replicate docSize 0⟩

/-- A call has the name and the value. -/
def addParamAsText (call : List UInt8 × List UInt8) (self : Map) : Map :=
  let doc := fillTextSpecialCharacter call.2 self.doc 0
  ⟨self.items ++ [⟨call.1.take 149, Buffer.cString doc⟩], doc⟩

/-! ## The escape rule -/

def hexValue (c : UInt8) : UInt8 :=
  if isdigit c then c - 48 else if 97 ≤ c then c - 87 else c - 55

/-- A backslash and two hexadecimal digits. -/
def startsCode : List UInt8 → Bool
  | c :: x :: y :: _ => c = backslash ∧ isxdigit x ∧ isxdigit y
  | _ => false

/-- A code stands for its byte, any other byte for itself. -/
def unescape : List UInt8 → List UInt8
  | c :: x :: y :: s =>
    if startsCode (c :: x :: y :: s) then (16 * hexValue x + hexValue y) :: unescape s
    else c :: unescape (x :: y :: s)
  | s => s

/-- The last text stored comes back, and is on one line. -/
def Restored (m : Map) (call : List UInt8 × List UInt8) : Prop :=
  ∃ item, (m.addParamAsText call).items.getLast? = some item ∧ newline ∉ item.text ∧
    unescape item.text = call.2

/-- A text as the loop writes it. -/
def escaped (t : List UInt8) : List UInt8 :=
  t.flatMap fun c => if c = newline then [backslash, 0x30, 0x41] else [c]

/-- What stays of the texts before, behind the one that is written. -/
def leftOver (m : Map) (t : List UInt8) : List UInt8 :=
  (Buffer.cString m.doc).drop (escaped t).length

/-- No backslash of a text has two hexadecimal digits behind it, with `rest` behind the text. -/
def CodeFree : List UInt8 → List UInt8 → Prop
  | [], _ => True
  | c :: t, rest =>
    (c = backslash → startsCode (escaped (c :: t) ++ rest) = false) ∧ CodeFree t rest

/-- The text is no shorter than those before it, and has no codes. -/
def Clean (m : Map) (call : List UInt8 × List UInt8) : Prop :=
  leftOver m call.2 = [] ∧ CodeFree call.2 []

/-! ## What is written -/

theorem escaped_newline (t : List UInt8) :
    escaped (newline :: t) = backslash :: 0x30 :: 0x41 :: escaped t := rfl

theorem escaped_cons {c : UInt8} (other : c ≠ newline) (t : List UInt8) :
    escaped (c :: t) = c :: escaped t := by
  rw [escaped, flatMap_cons, if_neg other]
  rfl

theorem mem_escaped {t : List UInt8} (noNul : 0 ∉ t) : ∀ c ∈ escaped t, c ≠ 0 ∧ c ≠ newline := by
  intro c written
  obtain ⟨d, member, inside⟩ := mem_flatMap.1 written
  split_ifs at inside with feed
  · simp only [mem_cons, not_mem_nil, or_false] at inside
    rcases inside with rfl | rfl | rfl <;> decide
  · rw [mem_singleton.1 inside]
    exact ⟨fun zero => noNul (zero ▸ member), feed⟩

theorem fillTextSpecialCharacter_eq (t front : List UInt8) {back : List UInt8}
    (fits : (escaped t).length ≤ back.length) :
    fillTextSpecialCharacter t (front ++ back) front.length =
      front ++ (escaped t ++ back.drop (escaped t).length) := by
  induction t generalizing front back with
  | nil => rfl
  | cons c t ih =>
    rw [fillTextSpecialCharacter]
    by_cases feed : c = newline
    · subst feed
      rw [escaped_newline] at fits ⊢
      match back, fits with
      | x :: y :: z :: back, fits =>
        have later := ih (front ++ [backslash, 0x30, 0x41]) (by simpa using fits)
        rw [if_neg (not_not_intro rfl)]
        simpa [backslash, newline] using later
    · rw [escaped_cons feed] at fits ⊢
      match back, fits with
      | x :: back, fits =>
        have later := ih (front ++ [c]) (by simpa using fits)
        rw [if_pos feed]
        simpa using later

/-- The buffer holds a string on one line, and zeros. -/
def Sound (m : Map) : Prop :=
  m.doc.length = docSize ∧
    ∃ body k, m.doc = body ++ List.replicate (k + 1) 0 ∧ ∀ c ∈ body, c ≠ 0 ∧ c ≠ newline

theorem cString_doc {body : List UInt8} (bytes : ∀ c ∈ body, c ≠ 0 ∧ c ≠ newline) (k : Nat) :
    Buffer.cString (body ++ List.replicate (k + 1) 0) = body :=
  (Buffer.cString_append_eq (fun zero => (bytes 0 zero).1 rfl) _).2 (.inr rfl)

theorem Sound.add {m : Map} (sound : m.Sound) {call : List UInt8 × List UInt8}
    (noNul : 0 ∉ call.2) (fits : (escaped call.2).length < docSize) :
    (m.addParamAsText call).Sound ∧ (Restored m call ↔
      unescape (escaped call.2 ++ leftOver m call.2) = call.2) := by
  obtain ⟨size, body, k, doc, bytes⟩ := sound
  have written := fillTextSpecialCharacter_eq call.2 [] (size ▸ fits.le)
  rw [nil_append, nil_append, length_nil, doc, drop_append, drop_replicate,
    ← append_assoc] at written
  have total := congrArg List.length doc
  rw [size, length_append, length_replicate] at total
  have left : leftOver m call.2 = body.drop (escaped call.2).length := by
    rw [leftOver, doc, cString_doc bytes]
  have both : ∀ c ∈ escaped call.2 ++ leftOver m call.2, c ≠ 0 ∧ c ≠ newline := by
    intro c member
    rcases mem_append.1 member with new | old
    · exact mem_escaped noNul c new
    · exact bytes c (mem_of_mem_drop (left ▸ old))
  obtain ⟨j, zeros⟩ : ∃ j, k + 1 - ((escaped call.2).length - body.length) = j + 1 :=
    ⟨k - ((escaped call.2).length - body.length), by omega⟩
  rw [zeros, ← left] at written
  refine ⟨⟨?_, _, j, (by rw [addParamAsText, doc]; exact written), both⟩, ?_⟩
  · rw [addParamAsText, doc, written, left]
    simp only [length_append, length_drop, length_replicate]
    omega
  · rw [Restored, addParamAsText, doc, written, cString_doc both]
    simp only [List.getLast?_concat, Option.some.injEq, exists_eq_left']
    exact and_iff_right fun feed => (both _ feed).2 rfl

theorem new_sound : new.Sound :=
  ⟨length_replicate, [], docSize - 1, rfl, fun _ none => absurd none not_mem_nil⟩

/-! ## What comes back -/

theorem unescape_cons {c : UInt8} {s : List UInt8} (free : startsCode (c :: s) = false) :
    unescape (c :: s) = c :: unescape s := by
  match s with
  | [] | [_] => rfl
  | x :: y :: s => rw [unescape, free]; rfl

theorem startsCode_other {c : UInt8} (other : c ≠ backslash) (s : List UInt8) :
    startsCode (c :: s) = false := by
  match s with
  | [] | [_] => rfl
  | x :: y :: s => simp [startsCode, other]

theorem unescape_newline (s : List UInt8) :
    unescape (backslash :: 0x30 :: 0x41 :: s) = newline :: unescape s := by
  rw [unescape, if_pos (show startsCode _ = true from rfl)]
  rfl

theorem CodeFree.unescape_eq {t rest : List UInt8} (free : CodeFree t rest) :
    unescape (escaped t ++ rest) = t ++ unescape rest := by
  induction t with
  | nil => rfl
  | cons c t ih =>
    by_cases feed : c = newline
    · subst feed
      rw [escaped_newline, cons_append, cons_append, cons_append, unescape_newline, ih free.2]
      rfl
    · have here := free.1
      rw [escaped_cons feed, cons_append] at here ⊢
      have none : startsCode (c :: (escaped t ++ rest)) = false := by
        by_cases slash : c = backslash
        · exact here slash
        · exact startsCode_other slash _
      rw [unescape_cons none, ih free.2]
      rfl

theorem unescape_eq_nil {s : List UInt8} (empty : unescape s = []) : s = [] := by
  match s, empty with
  | [], _ => rfl
  | x :: y :: z :: s, empty =>
    rw [unescape] at empty
    split_ifs at empty

theorem codeFree_of_length (t : List UInt8) : (unescape (escaped t)).length ≤ t.length ∧
    ((unescape (escaped t)).length = t.length → CodeFree t []) := by
  match t with
  | [] => exact ⟨Nat.le_refl 0, fun _ => trivial⟩
  | c :: t =>
    have ih := codeFree_of_length t
    by_cases feed : c = newline
    · subst feed
      rw [escaped_newline, unescape_newline]
      exact ⟨Nat.succ_le_succ ih.1, fun same => ⟨fun slash => absurd slash (by decide),
        ih.2 (Nat.succ.inj same)⟩⟩
    · rw [CodeFree, append_nil, escaped_cons feed]
      by_cases code : startsCode (c :: escaped t) = true
      · -- The digits are those of the text.
        obtain ⟨x, y, t, rfl, first, second⟩ : ∃ x y t', t = x :: y :: t' ∧ x ≠ newline ∧
            y ≠ newline := by
          match t with
          | [] => simp [escaped, startsCode] at code
          | x :: t =>
            have first : x ≠ newline := by
              rintro rfl
              simp [escaped_newline, startsCode, isxdigit, isdigit, backslash] at code
            rw [escaped_cons first] at code
            match t with
            | [] => simp [escaped, startsCode] at code
            | y :: t =>
              refine ⟨x, y, t, rfl, first, ?_⟩
              rintro rfl
              simp [escaped_newline, startsCode, isxdigit, isdigit, backslash] at code
        have later := (codeFree_of_length t).1
        rw [escaped_cons first, escaped_cons second] at code ⊢
        rw [unescape, if_pos code]
        simp only [length_cons]
        exact ⟨by omega, fun same => by omega⟩
      · have free := Bool.eq_false_iff.2 code
        rw [unescape_cons free]
        exact ⟨Nat.succ_le_succ ih.1, fun same => ⟨fun _ => free, ih.2 (Nat.succ.inj same)⟩⟩

theorem always_of_step {P Q : Map → List UInt8 × List UInt8 → Prop}
    (here : ∀ {m : Map} {call : List UInt8 × List UInt8}, m.Sound → 0 ∉ call.2 →
      (escaped call.2).length < docSize → P m call → Q m call)
    {calls : List (List UInt8 × List UInt8)} {m : Map} (sound : m.Sound)
    (fits : ∀ call ∈ calls, 0 ∉ call.2 ∧ (escaped call.2).length < docSize)
    (always : Trace.Always addParamAsText P calls m) : Trace.Always addParamAsText Q calls m := by
  induction calls generalizing m with
  | nil => trivial
  | cons call calls ih =>
    obtain ⟨noNul, size⟩ := fits call mem_cons_self
    exact ⟨here sound noNul size always.1, ih (sound.add noNul size).1
      (fun c member => fits c (mem_cons_of_mem _ member)) always.2⟩

/-- **Texts of a map**: clean ones come back; and where all come back, nothing is left behind
just those that have no codes. -/
theorem texts_restored {calls : List (List UInt8 × List UInt8)}
    (fits : ∀ call ∈ calls, 0 ∉ call.2 ∧ (escaped call.2).length < docSize) :
    (Trace.Always addParamAsText Clean calls new →
        Trace.Always addParamAsText Restored calls new) ∧
      (Trace.Always addParamAsText Restored calls new →
        Trace.Always addParamAsText (fun m call =>
          leftOver m call.2 = [] ↔ CodeFree call.2 (leftOver m call.2)) calls new) := by
  refine ⟨always_of_step (fun sound noNul size clean => ?_) new_sound fits,
    always_of_step (fun sound noNul size restored => ?_) new_sound fits⟩
  · rw [(sound.add noNul size).2, clean.1, clean.2.unescape_eq]
    exact append_nil _
  · have back := (sound.add noNul size).2.1 restored
    constructor
    · intro none
      rw [none, append_nil] at back
      rw [none]
      exact (codeFree_of_length _).2 (congrArg List.length back)
    · intro free
      rw [free.unescape_eq, append_right_eq_self] at back
      exact unescape_eq_nil back

theorem leftOver_new (t : List UInt8) : leftOver new t = [] := by
  have empty : Buffer.cString new.doc = [] := Buffer.cString_zero _
  rw [leftOver, empty, drop_nil]

/-- A text of two lines. -/
theorem texts_restored_lines :
    Trace.Always addParamAsText Restored [([0x61], [0x62, newline, 0x63])] new :=
  (texts_restored (by decide)).1 ⟨⟨leftOver_new _, by simp [CodeFree, newline, backslash]⟩, trivial⟩

/-- The text `\41` comes back as a letter. -/
theorem texts_not_restored :
    ¬∀ calls : List (List UInt8 × List UInt8),
      (∀ call ∈ calls, 0 ∉ call.2 ∧ (escaped call.2).length < docSize) →
        Trace.Always addParamAsText Restored calls new := by
  intro all
  have restored := (all [([0x61], [backslash, 0x34, 0x31])] (by decide)).1
  have back := (new_sound.add (by decide) (by decide)).2.1 restored
  rw [leftOver_new] at back
  exact absurd back (by decide)

end Map

end CimArm
