/-
  ModernCppKafka.Log — the buffer of include/kafka/Log.h that every log line is printed into.

  A `LogBuffer` prints one text after another into a fixed array.  `snprintf` is told how many
  bytes are left and cuts what does not fit, but it reports the uncut length, by which the write
  pointer is advanced and then held at the last byte.  A `Char` is one C `char`, so `N - 1` and
  the 1023 characters of a client's log line count bytes.  `none` is a run that goes wrong:
  `at()` on an empty array, the assertion, a byte written past the end.

  Main results:
    * `LogBuffer.print_prints`  — one print appends its text, cut to what is left;
    * `LogBuffer.run_truncates` — whatever is printed, the buffer holds the first `N - 1`
      characters of it, ended by a NUL, and the pointer stands on that NUL;
    * `logLine_eq`              — so a client's log line is what was printed, cut.
-/
import ModernCppKafka.Lib.Run
import ModernCppKafka.RdKafkaHelper

namespace ModernCppKafka

open ModernCppKafka.Lib.Run

/-! ## §1. The code. -/

/-- `LogBuffer<MAX_CAPACITY>`.  The pointer `_wptr` is its distance from `_buf.data()`. -/
structure LogBuffer (MAX_CAPACITY : Nat) where
  _buf : Vector Char MAX_CAPACITY
  _wptr : Nat

/-- Write the characters one after another, from position `at_` on. -/
def writeChars {N : Nat} (buf : Vector Char N) (at_ : Nat) : List Char → Option (Vector Char N)
  | [] => some buf
  | c :: cs => if h : at_ < N then writeChars (buf.set at_ c h) (at_ + 1) cs else none

/-- `std::snprintf(s, n, …)` where the format and its arguments print `text`: at most `n - 1`
characters and a NUL are written, nothing when `n` is zero.  What is returned is the length
without the cut. -/
def snprintf {N : Nat} (buf : Vector Char N) (s n : Nat) (text : CString) :
    Option (Vector Char N × Int) := do
  let buf ← if n = 0 then some buf else writeChars buf s (text.val.toList.take (n - 1) ++ [NUL])
  return (buf, text.val.toList.length)

namespace LogBuffer

variable {N : Nat}

def clear (b : LogBuffer N) : Option (LogBuffer N) :=
  if h : 0 < N then some { b with _buf := b._buf.set 0 NUL h, _wptr := 0 } else none

/-- The constructor: the array's bytes are whatever was there. -/
def new (_buf : Vector Char N) : Option (LogBuffer N) := clear { _buf, _wptr := 0 }

def capacity (b : LogBuffer N) : Nat := N - b._wptr

def print (b : LogBuffer N) (text : CString) : Option (LogBuffer N) := do
  let first ← b._buf[0]?
  guard (¬ (first ≠ NUL ∧ b._wptr = 0))
  let (buf, cnt) ← snprintf b._buf b._wptr b.capacity text
  return { _buf := buf
           _wptr := if cnt > 0 then min (b._wptr + cnt.toNat) (N - 1) else b._wptr }

/-- What a reader of `c_str()` gets; reading on past an array without a NUL goes wrong. -/
def c_str (b : LogBuffer N) : Option CString :=
  if NUL ∈ b._buf.toList then some (ModernCppKafka.c_str (String.ofList b._buf.toList)) else none

/-- A call on the buffer. -/
inductive Call where
  | clear
  | print (text : CString)

def call (b : LogBuffer N) : Call → Option (LogBuffer N)
  | .clear => b.clear
  | .print text => b.print text

/-- The characters printed since the last `clear()`, after `before` were. -/
def printed (before : List Char) : List Call → List Char
  | [] => before
  | .clear :: calls => printed [] calls
  | .print text :: calls => printed (before ++ text.val.toList) calls

/-! ## §2. One call. -/

/-- Characters written over as many others take their place. -/
theorem writeChars_toList {buf : Vector Char N} {at_ : Nat} {cs pre old post : List Char}
    (hbuf : buf.toList = pre ++ old ++ post) (hat : at_ = pre.length)
    (hlen : old.length = cs.length) :
    ∃ buf', writeChars buf at_ cs = some buf' ∧ buf'.toList = pre ++ cs ++ post := by
  induction cs generalizing buf at_ pre old with
  | nil =>
    obtain rfl : old = [] := List.length_eq_zero_iff.mp hlen
    exact ⟨buf, rfl, hbuf⟩
  | cons c cs ih =>
    obtain ⟨x, old, rfl⟩ : ∃ x xs, old = x :: xs := List.exists_cons_of_length_eq_add_one hlen
    have hN : at_ < N := by
      have := congrArg List.length hbuf
      simp only [Vector.length_toList, List.length_append, List.length_cons] at this
      omega
    have hset : (buf.set at_ c hN).toList = (pre ++ [c]) ++ old ++ post := by
      rw [Vector.toList_set, hbuf, hat]
      simp
    have hnext : at_ + 1 = (pre ++ [c]).length := by
      rw [hat, List.length_append, List.length_singleton]
    obtain ⟨buf', hwrite, hbuf'⟩ := ih hset hnext (by simpa using hlen)
    exact ⟨buf', by rw [writeChars, dif_pos hN, hwrite], by simpa using hbuf'⟩

/-- The buffer holds the first `N - 1` characters of `text`, then a NUL, and the pointer stands
on that NUL. -/
structure Holds (b : LogBuffer N) (text : List Char) : Prop where
  nulFree : NUL ∉ text
  wptr : b._wptr = min text.length (N - 1)
  buf : ∃ rest, b._buf.toList = text.take (N - 1) ++ NUL :: rest

theorem Holds.pos {b : LogBuffer N} {text : List Char} (h : b.Holds text) : 0 < N := by
  obtain ⟨rest, hbuf⟩ := h.buf
  have := congrArg List.length hbuf
  simp only [Vector.length_toList, List.length_append, List.length_cons] at this
  omega

/-- A cleared buffer is empty, whatever it held. -/
theorem clear_holds (hN : 0 < N) (b : LogBuffer N) : ∃ b', b.clear = some b' ∧ b'.Holds [] := by
  refine ⟨_, dif_pos hN, by simp, by simp, ?_⟩
  obtain ⟨c, rest, hbuf⟩ : ∃ c rest, b._buf.toList = c :: rest :=
    List.exists_cons_of_length_pos (by simpa using hN)
  exact ⟨rest, by simp [Vector.toList_set, hbuf]⟩

/-- The assertion of `print`: at the front of the array there is a NUL, or the pointer has
moved on. -/
theorem Holds.assert {b : LogBuffer N} {text : List Char} (h : b.Holds text) :
    ∃ first, b._buf[0]? = some first ∧ ¬ (first ≠ NUL ∧ b._wptr = 0) := by
  have hN := h.pos
  refine ⟨b._buf[0], Vector.getElem?_eq_getElem hN, ?_⟩
  rintro ⟨hfirst, hw⟩
  obtain ⟨rest, hbuf⟩ := h.buf
  -- with the pointer at the front nothing of the text is kept
  have hnil : text.take (N - 1) = [] := by
    rw [← List.length_eq_zero_iff, List.length_take, min_comm, ← h.wptr, hw]
  rw [hnil, List.nil_append] at hbuf
  apply hfirst
  have := congrArg (fun l => l[0]?) hbuf
  simpa [Vector.getElem?_eq_getElem hN] using this

/-- **One print**: it goes well, and its text is appended to what the buffer holds. -/
theorem print_prints {b : LogBuffer N} {before : List Char} (h : b.Holds before) (text : CString) :
    ∃ b', b.print text = some b' ∧ b'.Holds (before ++ text.val.toList) := by
  obtain ⟨first, hfirst, hassert⟩ := h.assert
  obtain ⟨rest, hbuf⟩ := h.buf
  have hN := h.pos
  have hwptr := h.wptr
  have hlen : (before.take (N - 1)).length + (rest.length + 1) = N := by
    have := congrArg List.length hbuf
    simpa using this.symm
  have hpre : (before.take (N - 1)).length = b._wptr := by
    rw [List.length_take, hwptr, min_comm]
  -- what fits, and the bytes it is written over
  set kept := text.val.toList.take (b.capacity - 1) ++ [NUL] with hkept
  have hcap : b.capacity = rest.length + 1 := by
    rw [capacity]
    omega
  have hfits : kept.length ≤ (NUL :: rest).length := by
    simp only [hkept, hcap, List.length_append, List.length_take, List.length_cons,
      List.length_nil]
    omega
  have hsplit : b._buf.toList =
      before.take (N - 1) ++ (NUL :: rest).take kept.length ++ (NUL :: rest).drop kept.length := by
    rw [List.append_assoc, List.take_append_drop]
    exact hbuf
  have hover : ((NUL :: rest).take kept.length).length = kept.length := by
    rw [List.length_take]
    omega
  obtain ⟨buf', hwrite, hbuf'⟩ := writeChars_toList hsplit hpre.symm hover
  refine ⟨{ _buf := buf', _wptr := min (b._wptr + text.val.toList.length) (N - 1) }, ?_, ?_⟩
  · -- a text of length zero leaves the pointer where it is, inside the bound already
    have hmove : (if (text.val.toList.length : Int) > 0 then
        min (b._wptr + (text.val.toList.length : Int).toNat) (N - 1) else b._wptr) =
          min (b._wptr + text.val.toList.length) (N - 1) := by
      split <;> omega
    have hsn : snprintf b._buf b._wptr b.capacity text =
        some (buf', (text.val.toList.length : Int)) := by
      rw [snprintf, if_neg (by omega), ← hkept, hwrite]
      rfl
    simp only [print, hfirst, guard, if_pos hassert, hsn, hmove, Option.bind_eq_bind,
      Option.bind_some, Option.pure_def]
  · refine ⟨?_, ?_, (NUL :: rest).drop kept.length, ?_⟩
    · rw [List.mem_append, not_or]
      exact ⟨h.nulFree, text.2⟩
    · simp only [List.length_append]
      omega
    · -- either all of `before` is kept and what is left is for the text, or nothing is left
      have hleft : b.capacity - 1 = N - 1 - before.length := by
        rw [capacity]
        omega
      rw [hbuf', hkept, hleft, List.take_append]
      simp

/-- What a reader gets of a buffer that holds `text`. -/
theorem Holds.c_str {b : LogBuffer N} {text : List Char} (h : b.Holds text) :
    ∃ s, b.c_str = some s ∧ s.val.toList = text.take (N - 1) := by
  obtain ⟨rest, hbuf⟩ := h.buf
  have hNUL : NUL ∈ b._buf.toList := by
    rw [hbuf]
    simp
  refine ⟨_, if_pos hNUL, ?_⟩
  show (String.ofList ((String.ofList b._buf.toList).toList.takeWhile (· ≠ NUL))).toList = _
  rw [String.toList_ofList, String.toList_ofList, hbuf, List.takeWhile_append_of_pos]
  · simp
  · intro c hc
    simpa using fun heq : c = NUL => h.nulFree (heq ▸ List.mem_of_mem_take hc)

/-! ## §3. Any calls. -/

/-- **A call goes well** and leaves what the calls so far have printed. -/
theorem call_holds {b : LogBuffer N} {before : List Char} (h : b.Holds before) (c : Call) :
    ∃ b', b.call c = some b' ∧ b'.Holds (printed before [c]) := by
  cases c with
  | clear => exact clear_holds h.pos b
  | print text => exact print_prints h text

theorem printed_cons (before : List Char) (c : Call) (calls : List Call) :
    printed before (c :: calls) = printed (printed before [c]) calls := by
  cases c <;> rfl

theorem run_holds {b : LogBuffer N} {before : List Char} (h : b.Holds before) (calls : List Call) :
    ∃ b', run call b calls = some b' ∧ b'.Holds (printed before calls) := by
  induction calls generalizing b before with
  | nil => exact ⟨b, rfl, h⟩
  | cons c calls ih =>
    obtain ⟨b', hcall, hb'⟩ := call_holds h c
    obtain ⟨b'', hrun, hb''⟩ := ih hb'
    rw [printed_cons]
    exact ⟨b'', (run_cons_eq_some call).mpr ⟨b', hcall, hrun⟩, hb''⟩

/-- **Truncates correctly, never overflows**: from construction on, every call goes well, the
pointer stays within the array, something is always left of it, and the buffer reads as the first
`N - 1` characters printed since the last `clear()`. -/
theorem run_truncates (hN : 1 ≤ N) (_buf : Vector Char N) (calls : List Call) :
    ∃ b₀ b, new _buf = some b₀ ∧ run call b₀ calls = some b ∧
      b._wptr < N ∧ b.capacity + b._wptr = N ∧ 1 ≤ b.capacity ∧
      ∃ s, b.c_str = some s ∧ s.val.toList = (printed [] calls).take (N - 1) := by
  obtain ⟨b₀, hnew, hb₀⟩ := clear_holds hN { _buf, _wptr := 0 }
  obtain ⟨b, hrun, hb⟩ := run_holds hb₀ calls
  have hwptr : b._wptr < N := by
    have := hb.wptr
    omega
  refine ⟨b₀, b, hnew, hrun, hwptr, ?_, ?_, hb.c_str⟩ <;> rw [capacity] <;> omega

/-- Five bytes: the second print is cut to what the first has left. -/
theorem run_truncates_five :
    ∃ b₀ b, new (Vector.replicate 5 'x') = some b₀ ∧
      run call b₀ [.print (ModernCppKafka.c_str "abc"), .print (ModernCppKafka.c_str "defg")] =
        some b ∧
      b._wptr < 5 ∧ b.capacity + b._wptr = 5 ∧ 1 ≤ b.capacity ∧
      ∃ s, b.c_str = some s ∧ s.val.toList = ['a', 'b', 'c', 'd'] :=
  run_truncates (by decide) _ _

end LogBuffer

/-! ## §4. A line of a client's log. -/

/-- `LOG_BUFFER_SIZE`. -/
def LOG_BUFFER_SIZE : ℕ := 1024

/-- The line that `doLog` hands to the log callback: the client's name, a space and the text, cut
to what the buffer holds. -/
def logLine (name text : String) : String :=
  String.ofList (((c_str name).val.toList ++ ' ' :: (c_str text).val.toList).take
    (LOG_BUFFER_SIZE - 1))

/-- That is what the buffer reads as after its two prints, whatever its bytes were before. -/
theorem logLine_eq (name text : String) (_buf : Vector Char LOG_BUFFER_SIZE) :
    ∃ b₀ b, LogBuffer.new _buf = some b₀ ∧
      run LogBuffer.call b₀ [.print (c_str ((c_str name).val ++ " ")), .print (c_str text)] =
        some b ∧
      ∃ s, b.c_str = some s ∧ s.val = logLine name text := by
  obtain ⟨b₀, hnew, hb₀⟩ :=
    LogBuffer.clear_holds (N := LOG_BUFFER_SIZE) (by decide) { _buf, _wptr := 0 }
  obtain ⟨b, hrun, hb⟩ := LogBuffer.run_holds hb₀
    [.print (c_str ((c_str name).val ++ " ")), .print (c_str text)]
  obtain ⟨s, hs, hread⟩ := hb.c_str
  have hname : NulFree ((c_str name).val ++ " ") := nulFree_append (c_str name).2 (by decide)
  refine ⟨b₀, b, hnew, hrun, s, hs, String.toList_inj.mp (hread.trans ?_)⟩
  rw [logLine, String.toList_ofList, LogBuffer.printed, LogBuffer.printed, LogBuffer.printed,
    c_str_of_nulFree hname, String.toList_append, List.nil_append, List.append_assoc]
  rfl

end ModernCppKafka
