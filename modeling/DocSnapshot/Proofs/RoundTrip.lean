import DocSnapshot.Manifest
import DocSnapshot.Proofs.Record.Shape
import DocSnapshot.Proofs.Timestamp

/-! Reading what was written. Records, manifests and configurations are written as JSON objects, on
one line or over several; either text is read as the value it was written from. -/
namespace DocSnapshot
open Json Json.Reader

namespace Record

private theorem reads_time {t : Timestamp} (h : t.Ordinary) :
    Reads readTimestamp (renderString t.render) t := by
  have hstring := reads_string "an RFC 3339 formatted date and time string" t.render
  refine ⟨hstring.starts,fun hb he => (hstring.takes hb he).last ?_⟩
  rw [Timestamp.parse_render h]
  exact takes_pure t _

private theorem steps_body (w : Writing) (d : Nat) {depth : Depth} {ms : List (String × Json)}
    (hread : ∀ m ∈ ms, Readable depth m.2)
    (hkey : ∀ m ∈ ms, m.1 ≠ "path" ∧ m.1 ≠ "generated_at") (draft : Draft) :
    Steps (readMember depth) (w.members d ms) draft
      { draft with body := ms.reverse ++ draft.body } := by
  induction ms generalizing draft with
  | nil => exact .nil draft
  | cons m ms ih =>
    rw [List.forall_mem_cons] at hread hkey
    have hnext := ih hread.2 hkey.2 { draft with body := m :: draft.body }
    rw [List.reverse_cons, List.append_assoc, List.singleton_append]
    refine .cons (fun he => ?_) hnext
    rw [readMember, if_neg hkey.1.1, if_neg hkey.1.2]
    have hvalue := (w.reads_any hread.1 d).takes w.gap_blank he
    exact (takes_colon _).bind (hvalue.last (takes_pure _ _))

private theorem body_keys (b : Body) : ∀ m ∈ b.members, m.1 ≠ "path" ∧ m.1 ≠ "generated_at" := by
  cases b with
  | «structure» s => simp [Body.members, Structure.members]
  | failed e => simp [Body.members]

private theorem steps_record (w : Writing) (d : Nat) {r : Record} (hbody : r.body.Fits)
    (htime : r.generatedAt.Ordinary) (depth : Depth) :
    Steps (readMember (depth + 7)) (w.members d ([("path", .str r.path)] ++ r.body.members ++
      [("generated_at", .str r.generatedAt.render)])) {}
      { path := some r.path, generatedAt := some r.generatedAt,
        body := r.body.members.reverse } := by
  have hpath : Steps (readMember (depth + 7)) (w.members d [("path", .str r.path)]) {}
      { path := some r.path } := by
    refine .cons (fun he => ?_) (.nil _)
    rw [w.text_str]
    have hstring := (reads_string "a string" r.path).takes w.gap_blank he
    exact (takes_colon _).bind (hstring.last (takes_pure _ _))
  have hmembers := steps_body w d (r.body.readable_members depth hbody) (body_keys r.body)
    { path := some r.path }
  have htime : Steps (readMember (depth + 7))
      (w.members d [("generated_at", .str r.generatedAt.render)])
      { path := some r.path, body := r.body.members.reverse }
      { path := some r.path, generatedAt := some r.generatedAt,
        body := r.body.members.reverse } := by
    refine .cons (fun he => ?_) (.nil _)
    rw [w.text_str]
    have hread := (reads_time htime).takes w.gap_blank he
    exact (takes_colon _).bind (hread.last (takes_pure _ _))
  rw [List.append_nil] at hmembers
  rw [w.members_append, w.members_append]
  exact (hpath.append hmembers).append htime

/-- A record is read from its text: its own fields as they come, and the body once all of its
members are known. -/
theorem reads_text (w : Writing) (d : Nat) {r : Record} (hbody : r.body.Fits)
    (htime : r.generatedAt.Ordinary) : Reads read (w.text d r.toJson) r := by
  -- One of the 128 levels is the record's own, and seven of the others hold its body.
  have hsteps := steps_record w (d + 1) hbody htime 120
  rw [toJson, w.text_object]
  refine Reads.of_first rfl (by decide) fun _ => ?_
  rw [if_pos rfl]
  refine (takes_enter (by decide) '\x7b' _).bind (hsteps.takes_rest d w.line_blank ?_)
  rw [List.reverse_reverse, Body.ofMembers?_members hbody]
  exact takes_pure _ _

end Record

namespace Manifest

theorem reads_text (w : Writing) (d : Nat) (m : Manifest) : Reads read (w.text d m.toJson) m := by
  have hstring (s : String) := w.reads_string (d + 1) "a string" s
  have hfiles := w.reads_strings (d + 1) "a sequence" m.documentedFiles
    (show 1 < fullDepth - 1 by decide)
  have hgap := w.gap_blank
  rw [toJson, w.text_object]
  refine Filled.reads ?_ (by decide) (by decide) _ d w.line_blank
  exact .cons hgap (hstring m.commitHash).map <| .cons hgap (hstring m.shortCommitHash).map <|
    .cons hgap (hstring m.commitDate).map <| .cons hgap (hstring m.commitMessage).map <|
    .cons hgap (hstring m.commitAuthor).map <| .cons hgap hfiles.map <| .nil m

end Manifest

namespace Config

structure Fits (c : Config) : Prop where
  parallelism : c.parallelism < Nat.pow 2 64
  deadline : ∀ n ∈ c.deadlineSeconds, n < Nat.pow 2 64

private theorem reads_hooks (w : Writing) (d : Nat) (b : Bool) {depth : Depth}
    (hdepth : 1 < depth) :
    Reads (readHooks depth) (w.text d (.obj [("post_commit", .bool b)])) b := by
  rw [w.text_object]
  refine Filled.reads ?_ (by decide) hdepth _ d w.line_blank
  exact .cons w.gap_blank (w.reads_boolean (d + 1) b).map (.nil b)

private theorem toJson_eq (c : Config) : c.toJson =
    .obj [("project_name", .optStr c.projectName), ("languages", .strings c.languages),
      ("output_dir", .str c.outputDir), ("ignore_file", .str c.ignoreFile),
      ("hooks", .obj [("post_commit", .bool c.postCommitHook)]),
      ("parallelism", .nat c.parallelism),
      ("deadline_secs", c.deadlineSeconds.elim .null .nat)] := by
  rw [toJson]
  cases c.deadlineSeconds <;> rfl

theorem reads_text (w : Writing) (d processors : Nat) {c : Config} (h : c.Fits) :
    Reads (read processors) (w.text d c.toJson) c := by
  have hdepth : 1 < fullDepth - 1 := by decide
  have hgap := w.gap_blank
  have hdeadline := w.reads_optNat (d + 1) "u64" h.deadline
  rw [toJson_eq, w.text_object]
  refine Filled.reads ?_ (by decide) (by decide) _ d w.line_blank
  exact .cons hgap (w.reads_optStr (d + 1) _ c.projectName).map <|
    .cons hgap (w.reads_strings (d + 1) _ c.languages hdepth).map <|
    .cons hgap (w.reads_string (d + 1) _ c.outputDir).map <|
    .cons hgap (w.reads_string (d + 1) _ c.ignoreFile).map <|
    .cons hgap (reads_hooks w (d + 1) c.postCommitHook hdepth).map <|
    .cons hgap (w.reads_natural (d + 1) _ h.parallelism).map <|
    .cons hgap hdeadline.map <| .nil c

end Config

/-- Records, manifests and configurations are what is read of their texts, and a record is written
with the members of its own form alone. -/
theorem ofText_toJson :
    (∀ r : Record, r.body.Fits → r.generatedAt.Ordinary →
      Record.ofText r.toJson.pretty = .ok r ∧ Record.ofText r.toJson.compact = .ok r) ∧
    (∀ r : Record, ∃ members, r.toJson = .obj members ∧
      (r.body.isError = true ∧ members.map (·.1) = ["path", "error", "generated_at"] ∨
        r.body.isError = false ∧ members.map (·.1) = ["path", "module_docstring", "imports",
          "classes", "functions", "constants", "generated_at"])) ∧
    (∀ m : Manifest,
      Manifest.ofText m.toJson.pretty = .ok m ∧ Manifest.ofText m.toJson.compact = .ok m) ∧
    ∀ (processors : Nat) (c : Config), c.Fits →
      Config.ofText processors c.toJson.pretty = .ok c ∧
        Config.ofText processors c.toJson.compact = .ok c := by
  refine ⟨fun r hbody htime => ?_,fun r => ?_,fun m => ?_,fun processors c hc => ?_⟩
  · exact ⟨(Record.reads_text .pretty 0 hbody htime).whole,
      (Record.reads_text .compact 0 hbody htime).whole⟩
  · refine ⟨_,rfl,?_⟩
    cases r.body with
    | «structure» s => exact .inr ⟨rfl,rfl⟩
    | failed e => exact .inl ⟨rfl,rfl⟩
  · exact ⟨(Manifest.reads_text .pretty 0 m).whole,(Manifest.reads_text .compact 0 m).whole⟩
  · exact ⟨(Config.reads_text .pretty 0 processors hc).whole,
      (Config.reads_text .compact 0 processors hc).whole⟩

/-- A record with parts of every kind, texts that need escapes, and the last line number and moment
that can be written. -/
def fullRecord : Record :=
  { path := "a/\x00\"\\\u2028😀.py"
    body := .structure
      { docstring := some "\x1f\t\x7f"
        imports := [⟨.direct, "os", none, some "o"⟩, ⟨.fromModule, "..", some "*", none⟩]
        classes := [
          { name := "C"
            docstring := none
            line := 18446744073709551615
            bases := ["B"]
            decorators := []
            methods := [⟨"m", none, 2, [.positional "cls" none false none,
              .keywordOnly "k" (some "int") true (some "0")], ["classmethod"], true, true, none,
              some ⟨true, false, false⟩⟩]
            properties := [⟨"p", some "null", 5⟩] }]
        functions := [⟨"f", none, 7, [.varPositional "*a" none, .varKeyword "**k" none], [], false,
          false, some "None", none⟩]
        constants := [⟨"K", 9, "'\\n'"⟩] }
    generatedAt := ⟨253402300799, 999999999⟩ }

theorem ofText_toJson_full :
    fullRecord.body.Fits ∧ fullRecord.generatedAt.Ordinary ∧
      Record.ofText fullRecord.toJson.pretty = .ok fullRecord ∧
      Record.ofText fullRecord.toJson.compact = .ok fullRecord ∧
      Config.ofText 4 { Config.standard 8 with deadlineSeconds := some 0 }.toJson.compact =
        .ok { Config.standard 8 with deadlineSeconds := some 0 } := by
  have hbody : fullRecord.body.Fits := by
    refine ⟨?_,?_,?_⟩
    · intro c hc
      obtain rfl := List.mem_singleton.1 hc
      exact ⟨by decide,by decide,by decide⟩
    · decide
    · decide
  have htime : fullRecord.generatedAt.Ordinary := ⟨by decide,by decide,by decide⟩
  have hconfig : Config.Fits { Config.standard 8 with deadlineSeconds := some 0 } :=
    ⟨by decide,by decide⟩
  have hrecord := ofText_toJson.1 fullRecord hbody htime
  exact ⟨hbody,htime,hrecord.1,hrecord.2,(ofText_toJson.2.2.2 4 _ hconfig).2⟩

end DocSnapshot
