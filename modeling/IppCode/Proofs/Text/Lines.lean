import IppCode.Machine.Endpoint
import IppCode.Proofs.Text.Encoding
import Mathlib.Data.List.SplitBy
import Mathlib.Data.List.TakeWhile

/-!
# Lines of an input

An input that does not fail is read chunk by chunk. Each reading takes the next chunk and its text,
and there is no text after the last chunk (`readLine_chunks`).
-/

namespace IppCode

def Text.withoutEnd (text : String) : String :=
  match text.toList.reverse with
  | '\n' :: '\r' :: rest => String.ofList rest.reverse
  | '\n' :: rest => String.ofList rest.reverse
  | _ => text

theorem Text.eq_push {text : String} {c : Char} {rest : List Char}
    (reversed : text.toList.reverse = c :: rest) :
    text = (String.ofList rest.reverse).push c := by
  rw [← String.toList_inj, String.toList_push, String.toList_ofList, ← List.reverse_cons,
    ← reversed, List.reverse_reverse]

theorem Text.withoutEnd_of_ne {text : String} (unended : ∀ front : String, text ≠ front.push '\n') :
    Text.withoutEnd text = text := by
  unfold Text.withoutEnd
  split
  · rename_i reversed
    exact (unended _ (Text.eq_push reversed)).elim
  · rename_i reversed
    exact (unended _ (Text.eq_push reversed)).elim
  · rfl

theorem Text.withoutEnd_push {text : String} (bare : ∀ front : String, text ≠ front.push '\r') :
    Text.withoutEnd (text.push '\n') = text := by
  unfold Text.withoutEnd
  rw [String.toList_push, List.reverse_append, List.reverse_singleton, List.singleton_append]
  split
  · rename_i rest reversed
    exact (bare _ (Text.eq_push (List.cons.inj reversed).2)).elim
  · rename_i rest _ reversed
    rw [← (List.cons.inj reversed).2, List.reverse_reverse, String.ofList_toList]
  · rename_i other
    exact (other _ rfl).elim

theorem Text.withoutEnd_push_push (text : String) :
    Text.withoutEnd ((text.push '\r').push '\n') = text := by
  simp [Text.withoutEnd]

namespace Input

variable {bytes chunk : List UInt8}

/-- The bytes, split after every line feed. -/
def chunks (bytes : List UInt8) : List (List UInt8) := bytes.splitBy fun b _ => b != lineFeed

def textOf (chunk : List UInt8) : Option String := (Text.ofBytes? chunk).map Text.withoutEnd

theorem push_ne {line : List UInt8} {text front : String} {c : Char} {b : UInt8}
    (single : String.utf8EncodeChar c = [b]) (other : line.getLast? ≠ some b)
    (decoded : Text.ofBytes? line = some text) : text ≠ front.push c := by
  rintro rfl
  apply other
  rw [← Text.ofBytes?_eq_some.1 decoded, Text.bytes_push, single, List.getLast?_concat]

theorem ofBytes?_stripEnd : Text.ofBytes? (stripEnd chunk) = textOf chunk := by
  have feed : String.utf8EncodeChar '\n' = [lineFeed] := rfl
  have ret : String.utf8EncodeChar '\r' = [carriageReturn] := rfl
  rw [textOf, stripEnd]
  split
  · rename_i ends
    obtain ⟨line, rfl⟩ := List.getLast?_eq_some_iff.1 ends
    rw [Text.ofBytes?_concat feed (by decide), List.dropLast_concat, Option.map_map]
    by_cases returns : line.getLast? = some carriageReturn
    · obtain ⟨front, rfl⟩ := List.getLast?_eq_some_iff.1 returns
      simp only [if_pos returns, List.dropLast_concat]
      rw [Text.ofBytes?_concat ret (by decide), Option.map_map]
      cases Text.ofBytes? front with
      | none => rfl
      | some text => exact congrArg some (Text.withoutEnd_push_push text).symm
    · simp only [if_neg returns]
      cases decoded : Text.ofBytes? line with
      | none => rfl
      | some text =>
        exact congrArg some (Text.withoutEnd_push fun _ => push_ne ret returns decoded).symm
  · rename_i ends
    cases decoded : Text.ofBytes? chunk with
    | none => rfl
    | some text =>
      exact congrArg some (Text.withoutEnd_of_ne fun _ => push_ne feed ends decoded).symm

theorem isChain_concat {line : List UInt8} (inside : ∀ b ∈ line, b ≠ lineFeed) (last : UInt8) :
    (line ++ [last]).IsChain fun b _ => (b != lineFeed) = true := by
  induction line with
  | nil => exact .singleton last
  | cons b line ih =>
    obtain ⟨first, others⟩ := List.forall_mem_cons.1 inside
    exact List.isChain_cons.2 ⟨fun _ _ => bne_iff_ne.2 first, ih others⟩

theorem chunks_drop (bytes : List UInt8) (k : Nat) :
    chunks ((chunks bytes).drop k).flatten = (chunks bytes).drop k := by
  apply List.splitBy_flatten
  · exact fun absurd => List.nil_notMem_splitBy _ _ (List.mem_of_mem_drop absurd)
  · exact fun _ member => List.isChain_of_mem_splitBy (List.mem_of_mem_drop member)
  · have apart := List.isChain_getLast_head_splitBy (fun b (_ : UInt8) => b != lineFeed) bytes
    exact apart.drop k

theorem chunks_eq_nextChunk (more : bytes ≠ []) :
    chunks bytes = (nextChunk bytes).1 :: chunks (nextChunk bytes).2 := by
  have whole : bytes.takeWhile (· != lineFeed) ++ bytes.dropWhile (· != lineFeed) = bytes :=
    List.takeWhile_append_dropWhile
  have inside (b : UInt8) (member : b ∈ bytes.takeWhile (· != lineFeed)) : b ≠ lineFeed := by
    have passes : (b != lineFeed) = true := List.mem_takeWhile_imp (p := (· != lineFeed)) member
    exact bne_iff_ne.1 passes
  rw [nextChunk]
  generalize bytes.takeWhile (· != lineFeed) = line at whole inside
  cases remaining : bytes.dropWhile (· != lineFeed) with
  | nil =>
    rw [remaining, List.append_nil] at whole
    subst whole
    obtain ⟨front, last, rfl⟩ := (List.eq_nil_or_concat' line).resolve_left more
    have chain := isChain_concat (fun b member => inside b (List.mem_append_left _ member)) last
    exact List.splitBy_of_isChain more chain
  | cons feed rest =>
    have ends : feed = lineFeed := by
      have stopped := List.head?_dropWhile_not (· != lineFeed) bytes
      simpa [remaining] using stopped
    rw [remaining] at whole
    calc chunks bytes
      _ = chunks ((line ++ [feed]) ++ rest) := by rw [← whole, List.append_cons]
      _ = chunks (line ++ [feed]) ++ chunks rest := by
        refine List.splitBy_append fun last here b _ => ?_
        rw [List.getLast?_concat, Option.mem_some_iff] at here
        simp [← here, ends]
      _ = [line ++ [feed]] ++ chunks rest := by
        rw [chunks, List.splitBy_of_isChain (by simp) (isChain_concat inside feed)]

theorem readLine_of_ne (more : bytes ≠ []) :
    readLine ⟨bytes, none⟩ =
      (⟨(nextChunk bytes).2, none⟩, .ok (textOf (nextChunk bytes).1)) := by
  have chunk : (nextChunk bytes).1 ∈ chunks bytes := by
    rw [chunks_eq_nextChunk more]
    exact List.mem_cons_self
  have nonempty : (nextChunk bytes).1.isEmpty = false := by
    simpa using List.ne_nil_of_mem_splitBy chunk
  rw [readLine]
  by_cases ends : (nextChunk bytes).1.getLast? = some lineFeed
  · simp only [if_pos ends, ofBytes?_stripEnd]
  · have whole : stripEnd (nextChunk bytes).1 = (nextChunk bytes).1 := by rw [stripEnd, if_neg ends]
    simp only [if_neg ends, nonempty, Bool.false_eq_true, if_false, ← ofBytes?_stripEnd, whole]

/-- Each reading takes one chunk, and has its text. After the last chunk there is nothing to take,
and no text. -/
theorem readLine_chunks (bytes : List UInt8) (k : Nat) :
    readLine ⟨((chunks bytes).drop k).flatten, none⟩ =
      (⟨((chunks bytes).drop (k + 1)).flatten, none⟩, .ok ((chunks bytes)[k]?.bind textOf)) := by
  have again := chunks_drop bytes k
  rw [← List.head?_drop, ← List.tail_drop]
  cases left : (chunks bytes).drop k with
  | nil => rfl
  | cons chunk later =>
    rw [left] at again
    have more : (chunk :: later).flatten ≠ [] := by
      intro empty
      rw [empty] at again
      cases again
    rw [chunks_eq_nextChunk more] at again
    obtain ⟨first, others⟩ := List.cons.inj again
    have rest : (nextChunk (chunk :: later).flatten).2 = later.flatten :=
      (List.flatten_splitBy _ _).symm.trans (congrArg List.flatten others)
    rw [readLine_of_ne more, first, rest]
    rfl

end Input

end IppCode
