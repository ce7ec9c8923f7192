import DeviceScope.Proofs.Disk.Basic

/-!
# Operations and their failures

What an operation leaves when it was done (`after?_of_perform`) and when it failed
(`nodes_of_perform_error`). Where a write was reported as done that was not, something else is in
its file (`leaves`). An operation on one file changes nothing but that file, whether it was done or
not (`sameBut_perform`), and so does a row of them, at any time (`sameBut_states`).
-/

namespace DeviceScope.Disk

variable {disk : Disk}

/-- What goes on after something that can fail had something to go on with. -/
theorem bind_eq_ok {α β : Type} {first : Except FileFault α} {next : α → Except FileFault β}
    {result : β} (h : first >>= next = .ok result) :
    ∃ value, first = .ok value ∧ next value = .ok result := by
  cases first with
  | error fault => exact absurd h (by simp [bind, Except.bind])
  | ok value => exact ⟨value, rfl, h⟩

theorem here_brokenOff (disk : Disk) (operation : Operation) :
    (disk.brokenOff operation).here = disk.here := by
  cases operation <;> rfl

/-! ### One operation -/

/-- What a write leaves in its file that fails without saying so, if these hazards are to come and
it does. -/
def lost? : List (Option Hazard) → Option Bytes
  | some hazard :: _ => if hazard.silent then some hazard.written else none
  | _ => none

/-- What a write that is reported as done leaves in its file, if these hazards are to come. -/
def leaves (hazards : List (Option Hazard)) (content : Bytes) : Bytes :=
  (lost? hazards).getD content

/-- What no hazard befalls is written. -/
theorem leaves_of_ne {hazards : List (Option Hazard)}
    (h : ∀ hazard rest, hazards ≠ some hazard :: rest) (content : Bytes) :
    leaves hazards content = content := by
  match hazards with
  | [] | none :: _ => rfl
  | some hazard :: rest => exact absurd rfl (h hazard rest)

/-- What is really done where an operation is reported as done, if these hazards are to come. -/
def actual (hazards : List (Option Hazard)) : Operation → Operation
  | .write path content => .write path (leaves hazards content)
  | operation => operation

/-- **What an operation comes to**: a hazard makes it fail, or what is really done in its place is
done as if nothing had happened. -/
theorem perform_cases (disk : Disk) (operation : Operation) :
    (∃ hazard, disk.perform operation = (.error .refused,
      { disk with nodes := disk.spoiled hazard operation, hazards := disk.hazards.tail })) ∨
    disk.perform operation =
      carryOut { disk with hazards := disk.hazards.tail } (actual disk.hazards operation) := by
  rw [perform]
  dsimp only
  split
  · next hazard rest hhazards =>
    rw [hhazards]
    cases operation with
    | write path content =>
      -- Only a write may fail without saying so.
      cases hsilent : hazard.silent with
      | true =>
        refine .inr ?_
        simp only [Hazard.instead?, actual, leaves, lost?, hsilent, if_pos, Option.getD_some]
      | false =>
        refine .inl ⟨hazard, ?_⟩
        simp only [Hazard.instead?, hsilent, Bool.false_eq_true, if_false]
    | _ => exact .inl ⟨hazard, rfl⟩
  · next hnone =>
    refine .inr ?_
    cases operation with
    | write path content => rw [actual, leaves_of_ne hnone]
    | _ => rfl

theorem here_carryOut (disk : Disk) (operation : Operation) :
    (disk.carryOut operation).2.here = disk.here := by
  rw [carryOut]
  split
  · exact here_brokenOff _ _
  · rfl

theorem here_perform (disk : Disk) (operation : Operation) :
    (disk.perform operation).2.here = disk.here := by
  rcases perform_cases disk operation with ⟨hazard, h⟩ | h
  · rw [h]
  · rw [h]
    exact here_carryOut _ _

theorem here_of_perform {operation : Operation} {result : Except FileFault Unit} {later : Disk}
    (h : disk.perform operation = (result, later)) : later.here = disk.here := by
  have hhere := here_perform disk operation
  rwa [h] at hhere

theorem hazards_brokenOff (disk : Disk) (operation : Operation) :
    (disk.brokenOff operation).hazards = disk.hazards := by
  cases operation <;> rfl

/-- An operation takes one hazard off. -/
theorem hazards_perform (disk : Disk) (operation : Operation) :
    (disk.perform operation).2.hazards = disk.hazards.tail := by
  rcases perform_cases disk operation with ⟨hazard, h⟩ | h
  · rw [h]
  · rw [h, carryOut]
    split
    · exact hazards_brokenOff _ _
    · rfl

/-- An operation that no hazard befalls is done. -/
theorem perform_eq_ok {operation : Operation} {nodes : Ledger Node}
    (hsafe : ∀ hazard rest, disk.hazards ≠ some hazard :: rest)
    (h : disk.after? operation = .ok nodes) :
    disk.perform operation = (.ok (), { disk with
      nodes, hazards := disk.hazards.tail, journal := operation :: disk.journal }) := by
  have hafter : after? { disk with hazards := disk.hazards.tail } operation = .ok nodes := h
  rw [perform]
  dsimp only
  split
  · next hazard rest hhazard => exact absurd hhazard (hsafe hazard rest)
  · rw [carryOut, hafter]

/-- Where an operation was done, what is really done in its place did what it says. -/
theorem after?_of_perform {operation : Operation} {later : Disk}
    (h : disk.perform operation = (.ok (), later)) :
    disk.after? (actual disk.hazards operation) = .ok later.nodes := by
  rcases perform_cases disk operation with ⟨hazard, hfails⟩ | hdone
  · rw [hfails] at h
    exact absurd (Prod.mk.inj h).1 (by simp)
  · rw [hdone, carryOut] at h
    split at h
    · exact absurd (Prod.mk.inj h).1 (by simp)
    · next nodes hafter =>
      obtain ⟨-, rfl⟩ := Prod.mk.inj h
      exact hafter

/-- An operation that failed left everything in place, but for a write, which may have left
something else in its file, and for folders, of which the first few may have been made. -/
theorem nodes_of_perform_error {operation : Operation} {fault : FileFault} {later : Disk}
    (h : disk.perform operation = (.error fault, later)) :
    later.nodes = disk.nodes ∨
      (∃ path content spot old written, operation = .write path content ∧
        disk.fileSpot? path = .ok (spot, some old) ∧
        later.nodes = disk.nodes.insert spot (.file written)) ∨
      ∃ path count, operation = .makeFolders path ∧
        later.nodes = foldersMade disk.nodes (disk.start path) (path.parts.take count) := by
  rcases perform_cases disk operation with ⟨hazard, hfails⟩ | hdone
  · -- A hazard: a write has to have found its file, and folders are made up to some name.
    rw [hfails] at h
    obtain ⟨-, rfl⟩ := Prod.mk.inj h
    dsimp only
    cases operation with
    | makeFolders path => exact .inr (.inr ⟨path, hazard.passed, rfl, rfl⟩)
    | write path content =>
      rw [spoiled]
      split
      · next spot old hspot =>
        exact .inr (.inl ⟨path, content, spot, old, hazard.written, rfl, hspot, rfl⟩)
      · exact .inl rfl
    | _ => exact .inl rfl
  · rw [hdone, carryOut] at h
    split at h
    · -- The operation could not be done: only folders may have been made in part.
      obtain ⟨-, rfl⟩ := Prod.mk.inj h
      cases operation with
      | makeFolders path =>
        refine .inr (.inr ⟨path, path.parts.length, rfl, ?_⟩)
        rw [List.take_length]
        rfl
      | _ => exact .inl rfl
    · exact absurd (Prod.mk.inj h).1 (by simp)

/-- A move that failed moved nothing. -/
theorem nodes_of_rename_error {source target : Path} {fault : FileFault} {later : Disk}
    (h : disk.perform (.rename source target) = (.error fault, later)) :
    later.nodes = disk.nodes := by
  rcases nodes_of_perform_error h with h | ⟨_, _, _, _, _, hwrite, -⟩ | ⟨_, _, hmake, -⟩
  · exact h
  · exact absurd hwrite (by simp)
  · exact absurd hmake (by simp)

/-- Making folders failed, so they were made up to some name. -/
theorem nodes_of_makeFolders_error {path : Path} {fault : FileFault} {later : Disk}
    (h : disk.perform (.makeFolders path) = (.error fault, later)) :
    ∃ count, later.nodes = foldersMade disk.nodes (disk.start path) (path.parts.take count) := by
  rcases nodes_of_perform_error h with h | ⟨_, _, _, _, _, hwrite, -⟩ | ⟨p, count, hmake, h⟩
  · exact ⟨0, h⟩
  · exact absurd hwrite (by simp)
  · obtain rfl := Operation.makeFolders.inj hmake
    exact ⟨count, h⟩

/-! ### Operations on one file -/

/-- The operation is on the file at a path, and on nothing else. -/
def Operation.IsOn (path : Path) : Operation → Prop
  | .create p | .write p _ | .sync p | .remove p => p = path
  | .makeFolders _ | .rename _ _ => False

/-- The spot of a file is where its path leads. -/
theorem spot_eq_place {path : Path} {names : List String} {spot : String} {content : Option Bytes}
    (hlocate : disk.locate? path = .ok names) (h : disk.fileSpot? path = .ok (spot, content)) :
    spot = place names := by
  obtain ⟨found, hfound, -, rfl, -⟩ := fileSpot?_eq_ok h
  rw [hlocate] at hfound
  rw [Except.ok.inj hfound]

/-- **An operation on one file changes nothing else**, done or not. -/
theorem sameBut_perform {operation : Operation} {path : Path} {names : List String}
    {result : Except FileFault Unit} {later : Disk} (hon : operation.IsOn path)
    (hlocate : disk.locate? path = .ok names) (h : disk.perform operation = (result, later)) :
    SameBut (place names) disk.nodes later.nodes := by
  cases result with
  | error fault =>
    -- A write that failed half way has still written only its own file.
    rcases nodes_of_perform_error h with
      h | ⟨p, content, spot, old, written, rfl, hspot, h⟩ | ⟨p, count, rfl, -⟩
    · rw [h]
      exact .refl _ _
    · obtain rfl : p = path := hon
      obtain rfl := spot_eq_place hlocate hspot
      rw [h]
      exact .insert written (get?_ne_folder_of_fileSpot? hspot)
    · exact absurd hon id
  | ok =>
    have hafter := after?_of_perform h
    cases operation with
    | makeFolders p => exact absurd hon id
    | rename source target => exact absurd hon id
    | create p =>
      obtain rfl : p = path := hon
      obtain ⟨⟨spot, content⟩, hspot, hnodes⟩ := bind_eq_ok hafter
      rw [← Except.ok.inj hnodes]
      obtain rfl := spot_eq_place hlocate hspot
      exact .insert [] (get?_ne_folder_of_fileSpot? hspot)
    | write p content =>
      -- The file is written, if not with what was to be written.
      obtain rfl : p = path := hon
      obtain ⟨⟨spot, old⟩, hspot, hnodes⟩ := bind_eq_ok hafter
      obtain rfl := spot_eq_place hlocate hspot
      cases old with
      | none => exact absurd hnodes (by simp)
      | some old =>
        rw [← Except.ok.inj hnodes]
        exact .insert (leaves disk.hazards content) (get?_ne_folder_of_fileSpot? hspot)
    | sync p =>
      obtain ⟨⟨spot, old⟩, hspot, hnodes⟩ := bind_eq_ok hafter
      cases old with
      | none => exact absurd hnodes (by simp)
      | some old =>
        rw [← Except.ok.inj hnodes]
        exact .refl _ _
    | remove p =>
      obtain rfl : p = path := hon
      obtain ⟨⟨spot, old⟩, hspot, hnodes⟩ := bind_eq_ok hafter
      obtain rfl := spot_eq_place hlocate hspot
      cases old with
      | none => exact absurd hnodes (by simp)
      | some old =>
        rw [← Except.ok.inj hnodes]
        exact .erase (get?_ne_folder_of_fileSpot? hspot)

/-! ### Rows of operations -/

/-- The disks that a row of operations goes through, up to the first that fails. -/
def states (disk : Disk) : List Operation → List Disk
  | [] => [disk]
  | operation :: rest =>
    disk ::
      match disk.perform operation with
      | (.ok (), later) => later.states rest
      | (.error _, later) => [later]

/-- The last of the disks is the one that the row leaves. -/
theorem getLast?_states (disk : Disk) (operations : List Operation) :
    (disk.states operations).getLast? = some (disk.performAll operations).2 := by
  induction operations generalizing disk with
  | nil => rfl
  | cons operation rest ih =>
    rw [states, performAll]
    cases hnext : disk.perform operation with
    | mk result next =>
      cases result with
      | ok =>
        dsimp only
        rw [List.getLast?_cons, ih]
        rfl
      | error fault => rfl

theorem performAll_append (disk : Disk) (first second : List Operation) :
    disk.performAll (first ++ second) =
      match disk.performAll first with
      | (.ok (), later) => later.performAll second
      | (.error fault, later) => (.error fault, later) := by
  induction first generalizing disk with
  | nil => rfl
  | cons operation rest ih =>
    rw [List.cons_append, performAll, performAll]
    split
    · exact ih _
    · rfl

/-- Two rows go through the disks of the first, and then through those of the second. -/
theorem mem_states_append {now : Disk} {first second : List Operation}
    (h : now ∈ disk.states (first ++ second)) :
    now ∈ disk.states first ∨
      ∃ mid, disk.performAll first = (.ok (), mid) ∧ now ∈ mid.states second := by
  induction first generalizing disk with
  | nil => exact .inr ⟨disk, rfl, h⟩
  | cons operation rest ih =>
    rw [List.cons_append, states, List.mem_cons] at h
    rw [states, performAll, List.mem_cons]
    rcases h with rfl | h
    · exact .inl (.inl rfl)
    · cases hnext : disk.perform operation with
      | mk result next =>
        rw [hnext] at h
        cases result with
        | ok => exact (ih h).imp_left .inr
        | error fault => exact .inl (.inr h)

/-- **A row of operations on one file changes nothing else**, at any time. -/
theorem sameBut_states {operations : List Operation} {path : Path} {names : List String}
    {now : Disk} (hon : ∀ operation ∈ operations, operation.IsOn path)
    (hlocate : disk.locate? path = .ok names) (h : now ∈ disk.states operations) :
    now.here = disk.here ∧ SameBut (place names) disk.nodes now.nodes := by
  induction operations generalizing disk with
  | nil =>
    obtain rfl := List.mem_singleton.1 h
    exact ⟨rfl, .refl _ _⟩
  | cons operation rest ih =>
    rw [states, List.mem_cons] at h
    rcases h with rfl | h
    · exact ⟨rfl, .refl _ _⟩
    · cases hnext : disk.perform operation with
      | mk result next =>
        -- The path leads to the same place afterwards, so the others are on the same file.
        have hhere := here_of_perform hnext
        have hsame := sameBut_perform (hon operation List.mem_cons_self) hlocate hnext
        rw [hnext] at h
        cases result with
        | ok =>
          obtain ⟨hhere', hsame'⟩ := ih (fun o ho => hon o (List.mem_cons_of_mem _ ho))
            (locate?_of_keeps hhere hsame.keeps hlocate) h
          exact ⟨hhere'.trans hhere, hsame.trans hsame'⟩
        | error fault =>
          obtain rfl := List.mem_singleton.1 h
          exact ⟨hhere, hsame⟩

/-- Once the first operation of a row was done, the others follow. -/
theorem performAll_cons_of_perform {operation : Operation} {rest : List Operation} {next : Disk}
    (h : disk.perform operation = (.ok (), next)) :
    disk.performAll (operation :: rest) = next.performAll rest := by
  rw [performAll, h]

/-- A row of operations that was done began with its first one. -/
theorem performAll_cons_ok {operation : Operation} {rest : List Operation} {later : Disk}
    (h : disk.performAll (operation :: rest) = (.ok (), later)) :
    ∃ next : Disk, next.here = disk.here ∧ next.hazards = disk.hazards.tail ∧
      disk.after? (actual disk.hazards operation) = .ok next.nodes ∧
        next.performAll rest = (.ok (), later) := by
  rw [performAll] at h
  split at h
  · next next hnext =>
    have hhazards := hazards_perform disk operation
    rw [hnext] at hhazards
    exact ⟨next, here_of_perform hnext, hhazards, after?_of_perform hnext, h⟩
  · exact absurd (Prod.mk.inj h).1 (by simp)

/-- A row of operations takes hazards off the front. -/
theorem exists_hazards_performAll (disk : Disk) (operations : List Operation) :
    ∃ count, (disk.performAll operations).2.hazards = disk.hazards.drop count := by
  induction operations generalizing disk with
  | nil => exact ⟨0, rfl⟩
  | cons operation rest ih =>
    have hhazards := hazards_perform disk operation
    rw [performAll]
    split
    · next next hnext =>
      obtain ⟨count, hcount⟩ := ih next
      rw [hnext] at hhazards
      refine ⟨count + 1, ?_⟩
      rw [hcount, hhazards, List.drop_tail]
    · next fault next hnext =>
      rw [hnext] at hhazards
      exact ⟨1, hhazards.trans List.drop_one.symm⟩

/-- A row of operations that was done takes a hazard off with each. -/
theorem hazards_of_performAll {operations : List Operation} {later : Disk}
    (h : disk.performAll operations = (.ok (), later)) :
    later.hazards = disk.hazards.drop operations.length := by
  induction operations generalizing disk with
  | nil =>
    obtain ⟨-, rfl⟩ := Prod.mk.inj h
    rfl
  | cons operation rest ih =>
    obtain ⟨next, -, hhazards, -, hrest⟩ := performAll_cons_ok h
    rw [ih hrest, hhazards, List.drop_tail, List.length_cons]

end DeviceScope.Disk
