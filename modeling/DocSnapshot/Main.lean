import DocSnapshot.CommandLine.Image

/-! The program. It reads the description of a host from the standard input, does what its
arguments say, and writes the files that have changed. -/
namespace DocSnapshot.CommandLine

def writeOut (path : String) (bytes : List UInt8) (executable : Bool) : IO Unit := do
  IO.FS.createDirAll ((Path.parent? path).getD "/")
  let beside := Artifact.tempPath path
  IO.FS.writeBinFile beside ⟨bytes.toArray⟩
  if executable then
    IO.setAccessRights beside ⟨⟨true, true, true⟩, ⟨true, false, true⟩, ⟨true, false, true⟩⟩
  IO.FS.rename beside path

end DocSnapshot.CommandLine

open DocSnapshot.CommandLine in
def main (arguments : List String) : IO UInt32 := do
  let input ← (← IO.getStdin).readToEnd
  match Image.ofText? input with
  | none =>
    IO.eprintln "the standard input does not describe a host"
    return 2
  | some image =>
    let (after, output) := run image.host image.files arguments
    for (path, bytes, executable) in changedFiles image.files after do
      writeOut path bytes executable
    IO.print output.stdout
    IO.eprint output.stderr
    return output.code.toUInt32
