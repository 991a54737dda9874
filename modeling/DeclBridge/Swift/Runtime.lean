import DeclBridge.Text.Basic

/-!
The Swift source that every generated file relies on: the collector behind the streams and the error
of the asynchronous functions. It does not depend on the declarations.
-/

namespace DeclBridge.Swift

open Text

def runtimeFile : Text := "KtBridgeRuntime.swift".toList

def generatedFile : Text := "KtBridge.swift".toList

def runtimeLines : List String := [
  "// MARK: - KtBridge Runtime Support",
  "// Helpers shared by the generated async and stream bridges.",
  "",
  "import Foundation",
  "",
  "/// Receives values pushed by a Kotlin Flow and forwards them to Swift callbacks.",
  "///",
  "/// At most one terminal event (completion or error) is delivered. After",
  "/// `cancel()`, emitted values are rejected so the producing `collect` call",
  "/// fails and the upstream subscription is torn down.",
  "public final class KtBridgeFlowCollector<T>: NSObject \x7b",
  "    private let onEmit: (T) -> Void",
  "    private let onComplete: () -> Void",
  "    private let onError: (Error) -> Void",
  "    private let lock = NSLock()",
  "    private var terminated = false",
  "    private var cancelled = false",
  "",
  "    public init(",
  "        onEmit: @escaping (T) -> Void,",
  "        onComplete: @escaping () -> Void,",
  "        onError: @escaping (Error) -> Void",
  "    ) \x7b",
  "        self.onEmit = onEmit",
  "        self.onComplete = onComplete",
  "        self.onError = onError",
  "    \x7d",
  "",
  "    public var isCancelled: Bool \x7b",
  "        lock.lock()",
  "        defer \x7b lock.unlock() \x7d",
  "        return cancelled",
  "    \x7d",
  "",
  "    /// Delivers one value. Returns false once the collector is cancelled or terminated.",
  "    @discardableResult",
  "    public func emit(_ value: T) -> Bool \x7b",
  "        lock.lock()",
  "        let active = !terminated && !cancelled",
  "        lock.unlock()",
  "        if active \x7b",
  "            onEmit(value)",
  "        \x7d",
  "        return active",
  "    \x7d",
  "",
  "    /// Entry point used by the Kotlin `FlowCollector` export.",
  "    public func emit(value: Any?, completionHandler: @escaping (Error?) -> Void) \x7b",
  "        guard let typed = value as? T, emit(typed) else \x7b",
  "            completionHandler(KtBridgeError.cancelled)",
  "            return",
  "        \x7d",
  "        completionHandler(nil)",
  "    \x7d",
  "",
  "    public func complete() \x7b",
  "        if markTerminated() \x7b",
  "            onComplete()",
  "        \x7d",
  "    \x7d",
  "",
  "    public func error(_ error: Error) \x7b",
  "        if markTerminated() \x7b",
  "            onError(error)",
  "        \x7d",
  "    \x7d",
  "",
  "    public func cancel() \x7b",
  "        lock.lock()",
  "        cancelled = true",
  "        lock.unlock()",
  "    \x7d",
  "",
  "    private func markTerminated() -> Bool \x7b",
  "        lock.lock()",
  "        defer \x7b lock.unlock() \x7d",
  "        if terminated \x7b",
  "            return false",
  "        \x7d",
  "        terminated = true",
  "        return true",
  "    \x7d",
  "\x7d",
  "",
  "extension Optional \x7b",
  "    /// Unwraps a Kotlin result or throws `KtBridgeError.nullResult`.",
  "    func unwrap(or error: Error = KtBridgeError.nullResult) throws -> Wrapped \x7b",
  "        guard let value = self else \x7b",
  "            throw error",
  "        \x7d",
  "        return value",
  "    \x7d",
  "\x7d",
  "",
  "public enum KtBridgeError: Error, LocalizedError \x7b",
  "    case nullResult",
  "    case cancelled",
  "    case kotlinException(message: String)",
  "",
  "    public var errorDescription: String? \x7b",
  "        switch self \x7b",
  "        case .nullResult:",
  "            return \"Unexpected null result from Kotlin\"",
  "        case .cancelled:",
  "            return \"Collection cancelled by the Swift consumer\"",
  "        case .kotlinException(let message):",
  "            return \"Kotlin exception: \\(message)\"",
  "        \x7d",
  "    \x7d",
  "\x7d"]

/-- Every line ends with a line feed, the last one too. -/
def runtimeSource : Text :=
  unlines (runtimeLines.map String.toList) ++ ['\n']

def generatedBanner : Text :=
  "// Generated by ktbridge. Do not edit.\n\nimport Foundation\n".toList

/-- A generated file. Without code it is the banner alone. -/
def generatedSource (code : Text) : Text :=
  if code.isEmpty then generatedBanner else generatedBanner ++ '\n' :: code ++ ['\n']

end DeclBridge.Swift
