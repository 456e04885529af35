import CimArm.Telesup.MessageReader

/-!
# Requests of a POS

`readMessage` collects what arrives until `isRequestComplete` finds the closing tag of a message
on a line of its own at the end.  The size that it returns, with which the text is parsed, is that
of its last read.

* `read_iff`: the size is that of the whole text just in case this came in one read.
-/

namespace CimArm.POSAcceptor

open Telesup List

/-! ## The end of a request -/

/-- A line feed, `</message>` and a line feed, around the last of the tag. -/
def messageTests : List (Int × (UInt8 → Bool)) :=
  [(1, fun c => c = newline), (0, fun c => c = 62), (-1, caseless 101), (-2, caseless 103),
    (-3, caseless 97), (-4, caseless 115), (-5, caseless 115), (-6, caseless 101),
    (-7, caseless 109), (-8, caseless 47), (-9, fun c => c = 60), (-10, fun c => c = newline)]

def isRequestComplete (aBuffer : List UInt8) : Option Bool := findsEnd 12 messageTests aBuffer

/-! ## Reading a message -/

def judgeRequest (text : List UInt8) : Except Stop Bool :=
  match isRequestComplete (cString text) with
  | none => .error .outside
  | some complete => .ok complete

/-- The rounds of `readMessage`: the text, the size of the last read, and what arrives behind. -/
def readRounds (aQty : Nat) : Nat → List (List UInt8) → List UInt8 →
    Except Stop (List UInt8 × Nat × List (List UInt8))
  | 0, _, _ => .error (.exn .general)
  | fuel + 1, chunks, text =>
    match Reassembly.read (aQty - text.length) chunks with
    | none => .error .waiting
    | some (chunk, chunks) =>
      if chunk = [] then .error (.exn .general)
      else
        match judgeRequest (text ++ chunk) with
        | .error e => .error e
        | .ok true => .ok (text ++ chunk, chunk.length, chunks)
        | .ok false => readRounds aQty fuel chunks (text ++ chunk)

/-- Each round that goes on has read something. -/
def readMessage (aQty : Nat) (chunks : List (List UInt8)) :
    Except Stop (List UInt8 × Nat × List (List UInt8)) :=
  match readRounds aQty (aQty + 1) chunks [] with
  | .error e => .error e
  | .ok (text, size, chunks) => .ok (cString text, size, chunks)

/-! ## What is found -/

/-- A line feed, the closing tag of a message in any letters, and a line feed. -/
def Closing (l : List UInt8) : Prop :=
  l.map FileTransfer.tolower = [10, 60, 47, 109, 101, 115, 115, 97, 103, 101, 62, 10]

/-- A request without NULs, at the end of which a message is closed. -/
structure Request : Type where
  text : List UInt8
  noNul : 0 ∉ text
  long : 14 ≤ text.length
  closed : ∃ head closing, text = head ++ closing ∧ Closing closing

/-- The message is closed nowhere else. -/
def Request.Single (m : Request) : Prop :=
  ∀ head closing rest, m.text = head ++ closing ++ rest → Closing closing → rest = []

theorem isRequestComplete_isSome {aBuffer : List UInt8} (nonempty : aBuffer ≠ []) :
    isRequestComplete aBuffer ≠ none :=
  findsEnd_isSome (by decide) nonempty

theorem tolower_eq_iff {c d : UInt8} (other : d < 65) : FileTransfer.tolower c = d ↔ c = d := by
  unfold FileTransfer.tolower
  split_ifs with upper
  · rw [UInt8.le_iff_toNat_le, UInt8.le_iff_toNat_le] at upper
    rw [UInt8.lt_iff_toNat_lt] at other
    rw [← UInt8.toNat_inj, ← UInt8.toNat_inj, UInt8.toNat_add]
    simp at *
    omega
  · rfl

theorem messageTests_eq_true {buffer head tail : List UInt8} (split : buffer = head ++ tail)
    (long : 11 ≤ tail.length) :
    compareAt buffer (head.length + 10 : Nat) messageTests = some true ↔
      Closing ((tail ++ [0]).take 12) := by
  have place (k : Nat) (j : Int) (same : j + 10 = k) :
      charAt buffer ((head.length + 10 : Nat) + j) = (tail ++ [0])[k]? := by
    rw [show ((head.length + 10 : Nat) : Int) + j = (head.length + k : Nat) by omega,
      charAt_add split]
  rw [compareAt_eq_true]
  simp only [messageTests, forall_mem_cons, not_mem_nil, IsEmpty.forall_iff, implies_true,
    and_true, place 11 1 rfl, place 10 0 rfl, place 9 (-1) rfl, place 8 (-2) rfl, place 7 (-3) rfl,
    place 6 (-4) rfl, place 5 (-5) rfl, place 4 (-6) rfl, place 3 (-7) rfl, place 2 (-8) rfl,
    place 1 (-9) rfl, place 0 (-10) rfl]
  have size : 12 ≤ (tail ++ [0]).length := by simpa using long
  generalize tail ++ [0] = l at size
  match l, size with
  | a :: b :: c :: d :: e :: f :: g :: h :: i :: j :: k :: l :: rest, _ =>
    simp only [caseless, decide_eq_true_eq]
    simp [Closing, newline, tolower_eq_iff]
    tauto

theorem Closing.length {l : List UInt8} (closing : Closing l) : l.length = 12 := by
  have length := congrArg List.length closing
  rwa [length_map] at length

theorem isRequestComplete_sound {aBuffer : List UInt8}
    (complete : isRequestComplete aBuffer = some true) :
    ∃ head closing rest, aBuffer = head ++ closing ++ rest ∧ Closing closing := by
  have nonempty : aBuffer ≠ [] := by
    rintro rfl
    cases complete
  rcases Ending.exists_of_ne_nil nonempty with ⟨body, last, gaps, found⟩
  rw [isRequestComplete, found.findsEnd_eq] at complete
  by_cases short : (body.length : Int) < 12
  · rw [if_pos short] at complete
    cases complete
  have parts := take_append_drop (body.length - 10) body
  have place : body.length = (body.take (body.length - 10)).length + 10 := by
    rw [length_take]
    omega
  have split : aBuffer =
      body.take (body.length - 10) ++ (body.drop (body.length - 10) ++ last :: gaps) := by
    rw [← append_assoc, parts, found.whole]
  have long : 11 ≤ (body.drop (body.length - 10) ++ last :: gaps).length := by
    rw [length_append, length_drop, length_cons]
    omega
  generalize body.take (body.length - 10) = head at place split
  generalize body.drop (body.length - 10) ++ last :: gaps = tail at split long
  rw [if_neg short, place, messageTests_eq_true split long] at complete
  by_cases more : 12 ≤ tail.length
  · rw [take_append_of_le_length more] at complete
    exact ⟨head, tail.take 12, tail.drop 12, by rw [split, append_assoc,
      take_append_drop], complete⟩
  · -- the place behind the text has the NUL
    rw [take_of_length_le (by simp; omega), Closing, map_append] at complete
    have last := congrArg List.getLast? complete
    rw [map_singleton, List.getLast?_concat] at last
    exact absurd last (by decide)

theorem isRequestComplete_closed {head closing : List UInt8} (long : 2 ≤ head.length)
    (closes : Closing closing) : isRequestComplete (head ++ closing) = some true := by
  have size := closes.length
  have ends : closing.drop 10 = [62, 10] := by
    have last := congrArg (List.drop 10) closes
    rw [map_drop.symm] at last
    obtain ⟨a, b, rest⟩ := length_eq_two.1 (by simp [size] : (closing.drop 10).length = 2)
    rw [rest] at last ⊢
    simp [tolower_eq_iff] at last
    rw [last.1, last.2]
  have found : Ending (head ++ closing) (head ++ closing.take 10) 62 [10] := by
    refine ⟨?_, by simp [IsGap, newline], by simp [IsGap, newline, blank]⟩
    rw [append_assoc, ← ends, take_append_drop]
  have place : (head ++ closing.take 10).length = head.length + 10 := by
    rw [length_append, length_take, size]
    rfl
  rw [isRequestComplete, found.findsEnd_eq, place, if_neg (by omega),
    messageTests_eq_true rfl (by omega), take_append_of_le_length (by omega),
    take_of_length_le size.le]
  exact closes

/-! ## The rounds -/

theorem readRounds_collect (aQty fuel : Nat) (chunks : List (List UInt8)) (text : List UInt8) :
    (readRounds aQty fuel chunks text).map (fun r => (r.1, r.2.2)) =
      Reassembly.collect judgeRequest .waiting (.exn .general) aQty fuel chunks text := by
  induction fuel generalizing chunks text with
  | zero => rfl
  | succ fuel ih =>
    rw [readRounds, Reassembly.collect]
    rcases Reassembly.read (aQty - text.length) chunks with _ | ⟨chunk, chunks⟩
    · rfl
    · dsimp only
      split_ifs with empty
      · rfl
      · rcases judgeRequest (text ++ chunk) with e | _ | _
        · rfl
        · exact ih chunks (text ++ chunk)
        · rfl

theorem readRounds_size {aQty : Nat} {whole : List UInt8}
    (complete : judgeRequest whole = .ok true) (room : whole.length ≤ aQty) {fuel : Nat}
    {chunks : List (List UInt8)} (some : chunks ≠ []) (nonempty : ∀ chunk ∈ chunks, chunk ≠ [])
    {text : List UInt8} (split : text ++ chunks.flatten = whole) {more : List (List UInt8)}
    {r : List UInt8 × Nat × List (List UInt8)}
    (done : readRounds aQty fuel (chunks ++ more) text = .ok r) :
    text.length + r.2.1 < whole.length ∨
      chunks.length = 1 ∧ text.length + r.2.1 = whole.length := by
  induction fuel generalizing chunks text with
  | zero => cases done
  | succ fuel ih =>
    match chunks, some with
    | chunk :: chunks, _ =>
      have size := congrArg List.length split
      simp only [flatten_cons, length_append] at size
      rw [readRounds, cons_append, Reassembly.read_append (by omega)] at done
      dsimp only at done
      rw [if_neg (nonempty chunk mem_cons_self)] at done
      rcases judged : judgeRequest (text ++ chunk) with e | _ | _ <;> rw [judged] at done
      · cases done
      · have later : (text ++ chunk) ++ chunks.flatten = whole := by
          rw [← split, flatten_cons, append_assoc]
        have goes : chunks ≠ [] := by
          rintro rfl
          rw [flatten_nil, append_nil] at later
          rw [later, complete] at judged
          cases judged
        have rest := ih goes (fun _ member => nonempty _ (mem_cons_of_mem _ member)) later done
        have first := length_pos_iff.2 (nonempty chunk mem_cons_self)
        rw [length_append] at rest
        exact .inl (by omega)
      · cases done
        dsimp only
        rcases chunks with _ | ⟨next, chunks⟩
        · exact .inr ⟨rfl, by simpa using size⟩
        · have second := length_pos_iff.2 (nonempty next (by simp))
          rw [flatten_cons, length_append] at size
          exact .inl (by omega)

namespace Request

variable (m : Request)

theorem cString_prefix {text : List UInt8} (start : text <+: m.text) : cString text = text :=
  takeWhile_eq_self_iff.2 fun _ member => decide_eq_true fun zero =>
    m.noNul (zero ▸ start.subset member)

theorem complete : judgeRequest m.text = .ok true := by
  obtain ⟨head, closing, whole, closes⟩ := m.closed
  have long := m.long
  rw [whole, length_append, closes.length] at long
  rw [judgeRequest, m.cString_prefix (prefix_refl _), whole,
    isRequestComplete_closed (by omega) closes]

theorem Single.judged {m : Request} (single : m.Single) :
    Reassembly.Judged judgeRequest m.text where
  complete := m.complete
  incomplete := by
    intro text start some shorter
    rw [judgeRequest, m.cString_prefix start]
    obtain ⟨rest, whole⟩ := start
    rcases looked : isRequestComplete text with _ | _ | _
    · exact absurd looked (isRequestComplete_isSome some)
    · rfl
    · obtain ⟨head, closing, behind, rfl, closes⟩ := isRequestComplete_sound looked
      have none := single head closing (behind ++ rest) (by simp [← whole]) closes
      rw [← whole, (append_eq_nil_iff.1 none).2, append_nil] at shorter
      exact absurd rfl shorter

/-- **Reassembly of a request**: its size is returned just in case it came in one read; a single
message is read to its end and no further, however it is split; and the search stays inside
the buffer. -/
theorem read_iff {aQty : Nat} (fits : m.text.length ≤ aQty) {chunks : List (List UInt8)}
    (nonempty : ∀ chunk ∈ chunks, chunk ≠ []) (split : chunks.flatten = m.text)
    (more : List (List UInt8)) :
    ((readMessage aQty (chunks ++ more) = .ok (m.text, m.text.length, more) ∧
        ∀ aBuffer, aBuffer ≠ [] → isRequestComplete aBuffer ≠ none) ↔ chunks = [m.text]) ∧
      (m.Single → ∃ size, readMessage aQty (chunks ++ more) = .ok (m.text, size, more)) := by
  have some : chunks ≠ [] := by
    rintro rfl
    have long := m.long
    rw [← split] at long
    cases long
  have start := m.cString_prefix (prefix_refl _)
  refine ⟨⟨fun read => ?_, ?_⟩, fun single => ?_⟩
  · have read := read.1
    rw [readMessage] at read
    rcases rounds : readRounds aQty (aQty + 1) (chunks ++ more) [] with e | ⟨text, size, rest⟩
    · rw [rounds] at read
      cases read
    · rw [rounds] at read
      have same : size = m.text.length := congrArg (·.2.1) (Except.ok.inj read)
      rcases readRounds_size m.complete fits some nonempty ((nil_append _).trans split)
        rounds with less | ⟨one, -⟩
      · rw [length_nil, Nat.zero_add, same] at less
        exact absurd less (Nat.lt_irrefl _)
      · obtain ⟨chunk, rfl⟩ := length_eq_one_iff.1 one
        rw [← split, flatten_singleton]
  · rintro rfl
    refine ⟨?_, fun _ => isRequestComplete_isSome⟩
    have first : Reassembly.read (aQty - ([] : List UInt8).length) (m.text :: more) =
        Option.some (m.text, more) :=
      Reassembly.read_append fits more
    rw [readMessage, readRounds, singleton_append, first]
    dsimp only
    rw [if_neg (nonempty _ mem_cons_self), nil_append, m.complete]
    dsimp only
    rw [start]
  · have enough : chunks.length ≤ aQty + 1 := by
      have each : ∀ n ∈ chunks.map List.length, 1 ≤ n := by
        intro n member
        obtain ⟨chunk, inside, rfl⟩ := mem_map.1 member
        exact length_pos_iff.2 (nonempty chunk inside)
      have total := length_le_sum_of_one_le _ each
      rw [length_map, ← List.length_flatten, split] at total
      omega
    have collected := single.judged.collect_eq .waiting (.exn .general) fits some nonempty
      ((nil_append _).trans split) more enough
    rw [← readRounds_collect] at collected
    rw [readMessage]
    rcases rounds : readRounds aQty (aQty + 1) (chunks ++ more) [] with e | ⟨text, size, rest⟩ <;>
      rw [rounds] at collected
    · cases collected
    · obtain ⟨rfl, rfl⟩ := Prod.mk.inj (Except.ok.inj collected)
      exact ⟨size, by dsimp only; rw [start]⟩

/-- A request as short as can be. -/
def shortest : Request where
  text := [60, 62, 10, 60, 47, 109, 101, 115, 115, 97, 103, 101, 62, 10]
  noNul := by decide
  long := Nat.le_refl 14
  closed := ⟨[60, 62], [10, 60, 47, 109, 101, 115, 115, 97, 103, 101, 62, 10], rfl, rfl⟩

theorem read_shortest : (readMessage 32767 ([shortest.text] ++ []) =
    .ok (shortest.text, shortest.text.length, []) ∧
      ∀ aBuffer, aBuffer ≠ [] → isRequestComplete aBuffer ≠ none) :=
  (shortest.read_iff (by decide) (by decide) rfl []).1.2 rfl

/-- In two chunks it has the size of the second. -/
theorem not_read_split :
    ¬∀ (m : Request) (aQty : Nat), m.text.length ≤ aQty → ∀ chunks : List (List UInt8),
      (∀ chunk ∈ chunks, chunk ≠ []) → chunks.flatten = m.text → ∀ more,
        readMessage aQty (chunks ++ more) = .ok (m.text, m.text.length, more) := by
  intro all
  have read := all shortest 32767 (by decide) [[60], shortest.text.tail] (by decide) rfl []
  exact absurd read (by decide)

end Request

end CimArm.POSAcceptor
